import SupervisorApi.Model.Choice
import SupervisorApi.Model.Sorted
import SupervisorApi.Text.Quoted

set_option autoImplicit false

namespace SupervisorApi

-- The name in a query of the place that has none.
def localLocation : String := ".local"

inductive Location where
  | named (name : String)
  | places (names : List (Option String))
  deriving DecidableEq, Repr

namespace Location

def queryValue (name : Option String) : String :=
  name.getD localLocation

def queryValues : Location → List String
  | .named name => [name]
  | .places names => names.map queryValue

def nullableText : Json → Except DecodeError (Option String)
  | .null => .ok none
  | .str s => .ok (some s)
  | _ => .error .mismatched

def encodeText (s : Option String) : Json :=
  match s with
  | some s => .str s
  | none => .null

def decode : Json → Except DecodeError Location
  | .str s => .ok (.named s)
  | .arr xs => (xs.mapM nullableText).map .places
  | _ => .error .mismatched

def encode : Location → Json
  | .named name => .str name
  | .places names => .arr (names.map encodeText)

end Location

inductive AddonSelection where
  | all
  | slugs (slugs : SortedSet String)

namespace AddonSelection

def keyword : String := "all"

def isSelected : AddonSelection → Bool
  | .all => true
  | .slugs s => !s.isEmpty

def text : Json → Except DecodeError String
  | .str s => .ok s
  | _ => .error .mismatched

def decode : Json → Except DecodeError AddonSelection
  | .str s => if s = keyword then .ok .all else .error (.badKeyword (Quoted.quote s))
  | .arr xs => (xs.mapM text).map fun slugs => .slugs (SortedSet.ofList slugs)
  | _ => .error .mismatched

def encode : AddonSelection → Json
  | .all => .str keyword
  | .slugs s => .arr (s.items.map .str)

end AddonSelection

def folder : Choice where
  names := ["share", "addons/local", "ssl", "media"]

namespace Selection

structure Parts where
  addons : Option AddonSelection
  folders : Option (SortedSet folder.Value)
  homeassistant : Option Bool

def Parts.isSelected (p : Parts) : Bool :=
  p.addons.any AddonSelection.isSelected || p.folders.any (fun f => !f.isEmpty)
    || p.homeassistant = some true

end Selection

structure Selection where
  parts : Selection.Parts
  selected : parts.isSelected = true

namespace Selection

def ofParts (p : Parts) : Except DecodeError Selection :=
  if h : p.isSelected = true then .ok ⟨p, h⟩ else .error .emptySelection

end Selection

end SupervisorApi
