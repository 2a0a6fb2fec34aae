import MemberDispatch.LogFilter.Directive
import MemberDispatch.Settings.Basic

/-!
# Log filters

A filter holds at most one directive for each target.  Longer targets stand
before shorter ones, targets of equal length in descending order, and the
directive without a target at the end.
-/

set_option autoImplicit false

namespace MemberDispatch

structure LogFilter where
  directives : List Directive
deriving DecidableEq, Inhabited

namespace LogFilter

def standsBefore : Option String → Option String → Bool
  | some first, some second =>
    second.utf8ByteSize < first.utf8ByteSize ||
      second.utf8ByteSize = first.utf8ByteSize && second < first
  | some _, none => true
  | none, _ => false

def put (added : Directive) : List Directive → List Directive
  | [] => [added]
  | head :: rest =>
    if head.target = added.target then added :: rest
    else if standsBefore added.target head.target then added :: head :: rest
    else head :: put added rest

/-- Later directives replace earlier ones.  A list that says nothing lets
errors through. -/
def ofDirectives (directives : List Directive) : LogFilter :=
  match directives with
  | [] => ⟨[⟨none, .error⟩]⟩
  | _ => ⟨directives.foldl (fun placed directive => put directive placed) []⟩

def ofText? (text : String) : Option LogFilter :=
  (Directive.listOf? text).map ofDirectives

def text (filter : LogFilter) : String :=
  ",".intercalate (filter.directives.map Directive.text)

/-! ## The effective filter -/

/-- Where nothing valid is configured. -/
def fallback : LogFilter := ⟨[⟨none, .info⟩]⟩

/-- The words that are read as a level in any case, and what they become. -/
def levelWords : List (String × String) :=
  [("trace", "trace"), ("debug", "debug"), ("info", "info"), ("warn", "warn"),
    ("warning", "warn"), ("error", "error")]

/-- A configured level as a list of directives: blank means the default, a level
word is normalised, and all else is taken as it stands. -/
def normalizeLevel (level : String) : String :=
  let trimmed := Text.trim level
  if trimmed = "" then LogSettings.defaultLevel
  else (levelWords.lookup (Text.lowerCase trimmed)).getD trimmed

def ofLevel (level : String) : LogFilter :=
  (ofText? (normalizeLevel level)).getD fallback

/-- The configured level merged with the directives of the environment, which
come second and so prevail.  Where the two cannot be read together, those of
the environment count, and where they cannot be read either, the level. -/
def effective (level : String) (environment : Option String) : LogFilter :=
  match (environment.map Text.trim).filter (· ≠ "") with
  | none => ofLevel level
  | some directives =>
    match ofText? (normalizeLevel level ++ "," ++ directives) with
    | some merged => merged
    | none => (ofText? directives).getD (ofLevel level)

end LogFilter

end MemberDispatch
