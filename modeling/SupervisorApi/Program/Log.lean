import SupervisorApi.Client.Event
import SupervisorApi.Text.LowerCase
import SupervisorApi.Text.Split

set_option autoImplicit false

namespace SupervisorApi

inductive LogLevel where
  | error
  | warn
  | info
  | debug
  | trace
  deriving DecidableEq, Repr

namespace LogLevel

def rank : LogLevel → Nat
  | .error => 1
  | .warn => 2
  | .info => 3
  | .debug => 4
  | .trace => 5

def text : LogLevel → String
  | .error => "ERROR"
  | .warn => " WARN"
  | .info => " INFO"
  | .debug => "DEBUG"
  | .trace => "TRACE"

end LogLevel

structure Report where
  level : LogLevel
  source : String
  text : String

namespace Report

def info (source message : String) : Report :=
  ⟨.info, source, source ++ ": " ++ message⟩

def ofEvent (s : Span) (e : Event) : Report :=
  ⟨.debug, e.source, s.text ++ ": " ++ e.source ++ ": " ++ e.message⟩

def line (r : Report) : String :=
  r.level.text ++ " " ++ r.text

end Report

structure LogRule where
  source : String
  limit : Nat
  deriving DecidableEq, Repr

abbrev LogFilter := List LogRule

namespace LogFilter

def standard : LogFilter := [⟨"", LogLevel.info.rank⟩]

def limits : List (String × Nat) :=
  [("off", 0), ("error", 1), ("warn", 2), ("info", 3), ("debug", 4), ("trace", 5), ("0", 0),
    ("1", 1), ("2", 2), ("3", 3), ("4", 4), ("5", 5)]

def limit? (s : List Char) : Option Nat :=
  limits.lookup (String.ofList (s.map LowerCase.char))

def isSourceChar (c : Char) : Bool :=
  ('a' ≤ c && c ≤ 'z') || ('A' ≤ c && c ≤ 'Z') || ('0' ≤ c && c ≤ '9') || c = '_' || c = '-'
    || c = ':'

def source? (s : List Char) : Option String :=
  if s ≠ [] ∧ s.all isSourceChar then some (String.ofList s) else none

-- A limit, a source, or a source and its limit. A source without a limit shows all it has.
def rule? (s : List Char) : Option LogRule :=
  let name := s.takeWhile (· ≠ '=')
  match s.drop name.length with
  | [] =>
    match limit? s with
    | some n => some ⟨"", n⟩
    | none => (source? s).map fun t => ⟨t, LogLevel.trace.rank⟩
  | [_] => (source? name).map fun t => ⟨t, LogLevel.trace.rank⟩
  | _ :: level => do return ⟨← source? name, ← limit? level⟩

def parts (s : List Char) : List (List Char) :=
  (splitAt ',' s).filter (· ≠ [])

-- A text that is no list of rules counts as none, and no rules show errors alone.
def parse (text : Option String) : LogFilter :=
  match text.bind fun t => (parts t.toList).mapM rule? with
  | none => standard
  | some [] => [⟨"", LogLevel.error.rank⟩]
  | some rules => rules

def better (a b : LogRule) : LogRule :=
  if a.source.length ≤ b.source.length then b else a

-- Of the rules for a source the most specific counts, and the later one of two that are alike.
def shows (f : LogFilter) (r : Report) : Bool :=
  match f.filter fun rule => rule.source.toList.isPrefixOf r.source.toList with
  | [] => false
  | rule :: more => r.level.rank ≤ (more.foldl better rule).limit

end LogFilter

end SupervisorApi
