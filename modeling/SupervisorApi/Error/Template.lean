import SupervisorApi.Error.Kind
import SupervisorApi.Json.Writer
import SupervisorApi.Text.Blank

set_option autoImplicit false

namespace SupervisorApi

inductive ValueClass where
  | line
  | word
  deriving DecidableEq, Repr

def ValueClass.admits : ValueClass → Char → Bool
  | .line, c => c != '\n'
  | .word, c => !isBlank c

structure Template where
  kind : ErrorKind
  field : String
  opening : String
  middle : String
  closing : String
  value : ValueClass

namespace Template

def architecture : Template where
  kind := .addonNotSupportedArchitecture
  field := "architectures"
  opening := "Add-on "
  middle := " not supported on this platform, supported architectures: "
  closing := ""
  value := .line

def machineType : Template where
  kind := .addonNotSupportedMachineType
  field := "machine_types"
  opening := "Add-on "
  middle := " not supported on this machine, supported machine types: "
  closing := ""
  value := .line

def version : Template where
  kind := .addonNotSupportedVersion
  field := "version"
  opening := "Add-on "
  middle := " not supported on this system, requires Home Assistant version "
  closing := " or greater"
  value := .word

def all : List Template :=
  [architecture, machineType, version]

def forKind (k : ErrorKind) : Option Template :=
  all.find? fun t => t.kind = k

def fill (t : Template) (slug value : String) : String :=
  t.opening ++ slug ++ t.middle ++ value ++ t.closing

def afterStart (start text : List Char) : Option (List Char) :=
  if start.isPrefixOf text then some (text.drop start.length) else none

def beforeEnd (ending text : List Char) : Option (List Char) :=
  if ending.isSuffixOf text then some (text.take (text.length - ending.length)) else none

/-- The add-on and the value of a message. The add-on is a word, so it ends at the first blank. -/
def read? (t : Template) (message : String) : Option (String × String) := do
  let rest ← afterStart t.opening.toList message.toList
  let slug := rest.takeWhile fun c => !isBlank c
  let rest ← afterStart t.middle.toList (rest.drop slug.length)
  let value ← beforeEnd t.closing.toList rest
  if slug ≠ [] ∧ value ≠ [] ∧ value.all t.value.admits then
    some (String.ofList slug, String.ofList value)
  else none

end Template

namespace Json

mutual
def display : Json → String
  | .str s => s
  | .arr xs => ", ".intercalate (displayItems xs)
  | other => other.text

def displayItems : List Json → List String
  | [] => []
  | x :: xs => display x :: displayItems xs
end

end Json

namespace ErrorKind

def slugField : String := "slug"

def renderMessage (k : ErrorKind) (extra : Members) : Option String := do
  let t ← Template.forKind k
  let slug ← extra.get? slugField
  let value ← extra.get? t.field
  return t.fill slug.display value.display

end ErrorKind

def matchMessage (message : String) : Option (ErrorKind × Members) :=
  Template.all.findSome? fun t =>
    (t.read? message).map fun (slug, value) =>
      (t.kind, Members.ofList [(ErrorKind.slugField, .str slug), (t.field, .str value)])

end SupervisorApi
