import ReleaseTracker.Json.Basic

/-! Records read from JSON. A record is an object with the declared names, or a list of their values
in order; unknown names are passed over, and a declared name may stand only once. -/

namespace ReleaseTracker.Json

/-- A declared field. A listed record may end before fields that may be lacking. -/
structure Field where
  name : String
  mayLack : Bool

def field (name : String) : Field := ⟨name, false⟩

def lacking (name : String) : Field := ⟨name, true⟩

def single (name : String) (given : List (String × Json)) : Option (Option Json) :=
  match given.filter (·.1 = name) with
  | [] => some none
  | [(_, v)] => some (some v)
  | _ => none

def listed : List Field → List Json → Option (List (Option Json))
  | [], [] => some []
  | [], _ :: _ => none
  | f :: fields, [] => if f.mayLack then (listed fields []).map (none :: ·) else none
  | _ :: fields, v :: rest => (listed fields rest).map (some v :: ·)

def columns (fields : List Field) : Json → Option (List (Option Json))
  | .obj given => fields.mapM fun f => single f.name given
  | .arr items => listed fields items
  | _ => none

def required {α : Type} (read : Json → Option α) (column : Option Json) : Option α :=
  column.bind read

def optional {α : Type} (read : Json → Option α) : Option Json → Option (Option α)
  | none => some none
  | some v => if v.isNull then some none else (read v).map some

def withDefault {α : Type} (default : α) (read : Json → Option α) : Option Json → Option α
  | none => some default
  | some v => read v

def listOf {α : Type} (read : Json → Option α) (v : Json) : Option (List α) :=
  v.arr?.bind (·.mapM read)

def anyValue (v : Json) : Option Json := if v.isReadable then some v.canonical else none

def unitName? : Json → Option String
  | .str s => some s
  | .obj [(name, .null)] => some name
  | _ => none

end ReleaseTracker.Json
