import ReleaseTracker.Text.Blank
import ReleaseTracker.Text.Search

/-! The text that is published for a tag: a message without its PGP signature, or a file with its
size. -/

namespace ReleaseTracker

def signatureMark : List Char := "-----BEGIN PGP SIGNATURE-----".toList

def stripSignature (message : List Char) : List Char :=
  Text.trimEnd (Text.cutAtFirst signatureMark message).1

def blobText (size : Nat) (content : String) : String :=
  toString size ++ " bytes\n\n" ++ content

end ReleaseTracker
