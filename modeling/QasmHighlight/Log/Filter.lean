import QasmHighlight.Log.Directive

/-!
# Log filters

A filter is a list of directives, separated by commas.  Of the directives that
are about an event the most specific decides whether the event is shown, and of
two that are equally specific the later.  An event that no directive is about
is not shown.
-/

namespace QasmHighlight
namespace Log

structure Filter where
  directives : List Directive

namespace Filter

def errorsOnly : Filter := ⟨[{ threshold := some .error }]⟩

/-- Shows everything that is at least information. -/
def standard : Filter := ⟨[{ threshold := some .info }]⟩

/-- Shows everything that is of use in tracking down an error. -/
def detailed : Filter := ⟨[{ threshold := some .debug }]⟩

/-- The directives of a text, uninterpreted. -/
def parts (text : String) : List String :=
  (text.splitOn ",").filter (!·.isEmpty)

/-- A directive that may be left out; one that cannot be cut ends the reading. -/
def readOptional (part : String) : Except DirectiveFault (Option Directive) :=
  match Directive.read part with
  | .ok directive => .ok (some directive)
  | .error .insideCharacter => .error .insideCharacter
  | .error _ => .ok none

/-- The filter that a text denotes.  Faulty directives have no effect, and if no
other is left, errors are shown. -/
def lenient (text : String) : Except DirectiveFault Filter := do
  let directives := (← (parts text).mapM readOptional).filterMap id
  return if directives.isEmpty then errorsOnly else ⟨directives⟩

/-- What is said about the directives that have no effect, up to one that ends
the reading. -/
def complaints (text : String) : List String :=
  ((parts text).takeWhile fun part => (readOptional part).isOk).filterMap fun part =>
    match Directive.read part with
    | .ok _ => none
    | .error fault => some ("ignoring `" ++ part ++ "`: " ++ fault.message)

/-- The filter that a text denotes, if none of its directives is faulty. -/
def strict (text : String) : Except DirectiveFault Filter := do
  return ⟨← (parts text).mapM Directive.read⟩

def applicable (filter : Filter) (event : Event) : List Directive :=
  filter.directives.filter (·.isAbout event)

/-- The directive that decides about an event. -/
def decisive? (filter : Filter) (event : Event) : Option Directive :=
  (filter.applicable event).foldl
    (fun best directive => if best.all (·.detailLe directive) then some directive else best) none

def admits (filter : Filter) (event : Event) : Bool :=
  (filter.decisive? event).any (·.threshold.admits event.level)

end Filter
end Log
end QasmHighlight
