import ReleaseTracker.Credential.Basic
import ReleaseTracker.GitHub.Client

/-! How clients are made from credentials: which interface their listings go by, and whether their
requests are paced. -/

namespace ReleaseTracker

structure ClientFactory where
  listing : ListingKind
  requestsPerSecond : Option Nat
deriving DecidableEq, Repr

namespace ClientFactory

def listingDisplay : ListingKind → String
  | .rest => "Rest"
  | .graphql => "GraphQl"

def display (factory : ClientFactory) : String :=
  let pace :=
    if factory.requestsPerSecond.isSome then "Some(ApiRateLimiter \x7b .. \x7d)" else "None"
  "GitHubClientFactory \x7b listing: " ++ listingDisplay factory.listing ++ ", rate_limiter: " ++
    pace ++ " \x7d"

/-- May the character stand in a header? Control characters may not, but for the tab. -/
def inHeader (c : Char) : Bool := c = '\t' || (0x20 ≤ c.toNat && c ≠ '\x7F')

def admits : Credential → Bool
  | .app _ _ => true
  | .user credential => credential.token.toList.all inHeader

end ClientFactory
end ReleaseTracker
