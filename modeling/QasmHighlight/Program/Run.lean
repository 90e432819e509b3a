import QasmHighlight.Log.Filter
import QasmHighlight.Log.Line
import QasmHighlight.Program.Arguments
import QasmHighlight.Program.SessionLog
import QasmHighlight.Protocol.Server

/-!
# A run of the program

Given its arguments, its environment and the messages that arrive, a run is
fixed: what it prints and answers, what it logs, and what is left in the cache
directory.
-/

namespace QasmHighlight
namespace Program

open Protocol

/-- The texts that the surroundings of a run supply for its log. -/
structure Labels where
  /-- The time of each line. -/
  time : String
  /-- The path of the directory of the session logs. -/
  directory : String
  /-- The name of the new session log. -/
  sessionLog : String

/-- All that a run depends on. -/
structure Launch where
  arguments : List String
  /-- The log filter of the environment. -/
  logVariable : Option String
  cache : Cache
  messages : List Json

structure Report where
  exitCode : Nat
  output : String := ""
  responses : List Json := []
  log : List String := []
  cache : List String
  /-- The lines of the new session log. -/
  sessionLog : Option (List String) := none

/-- The filter of the log: that of the arguments, else that of the environment
if none of its directives is faulty.  None if the text of the filter cannot be
cut into its parts. -/
def chooseFilter? (argument variableText : Option String) : Option Log.Filter :=
  match argument, variableText with
  | some text, _ => (Log.Filter.lenient text).toOption
  | none, none => some .standard
  | none, some text =>
    match Log.Filter.strict text with
    | .ok filter => some filter
    | .error .insideCharacter => none
    | .error _ => some .standard

def Settings.complaints (settings : Settings) : List String :=
  settings.logFilter.toList.flatMap Log.Filter.complaints

def Settings.limits (settings : Settings) : Limits :=
  let standard : Limits := {}
  { standard with maxBytes := settings.maxBytes.getD standard.maxBytes }

def Settings.server (settings : Settings) : Server :=
  { session := { limits := settings.limits } }

def Settings.starting (settings : Settings) : Log.Event :=
  .starting settings.stdio settings.limits.maxBytes

/-- What a server has answered and logged so far, the last first. -/
structure Progress where
  server : Server
  responses : List Json
  events : List Log.Event

def Progress.step (progress : Progress) (message : Json) : Progress :=
  match Message.ofJson? message with
  | none => progress
  | some message =>
    let (server, reaction) := progress.server.receive message
    ⟨server, reaction.response.toList.map Response.toJson ++ progress.responses,
      reaction.events.reverse ++ progress.events⟩

/-- Serves an editor: the answers, and the events of the whole run. -/
def serve (settings : Settings) (messages : List Json) : List Json × List Log.Event :=
  let progress := messages.foldl Progress.step ⟨settings.server, [], [settings.starting]⟩
  (progress.responses.reverse, (.stopped :: progress.events).reverse)

def logLines (filter : Log.Filter) (coloured : Bool) (time : String)
    (events : List Log.Event) : List String :=
  (events.filter filter.admits).map fun event => event.line coloured time

/-- The line that tells how many session logs were removed. -/
def removalLine (count : Nat) (directory : String) : List String :=
  if count = 0 then [] else [s!"Removed {count} old log file(s) from \"{directory}\""]

/-- What a plain file in place of the cache directory leads to. -/
def cacheFailure : String := "Error: failed to initialize logging"

def Cache.names : Cache → List String
  | .directory entries => entries.map (·.name)
  | .plainFile => []

/-- The exit code of a run that cannot go on. -/
def abortCode : Nat := 101

def runWith (labels : Labels) (launch : Launch) (settings : Settings) (filter : Log.Filter) :
    Report :=
  let (responses, events) := serve settings launch.messages
  let log := logLines filter (!settings.plainLog) labels.time events
  if settings.logFile then
    match launch.cache with
    | .plainFile =>
      { exitCode := 1, log := settings.complaints ++ [cacheFailure], cache := [] }
    | .directory entries =>
      let (expired, kept) := entries.partition CacheEntry.isExpired
      { exitCode := 0
        responses := responses
        log := settings.complaints ++ removalLine expired.length labels.directory ++ log
        cache := labels.sessionLog :: kept.map (·.name)
        sessionLog := some (logLines .detailed false labels.time events) }
  else
    { exitCode := 0
      responses := responses
      log := settings.complaints ++ log
      cache := launch.cache.names }

def run (labels : Labels) (launch : Launch) : Report :=
  match readArguments {} launch.arguments with
  | .help => { exitCode := 0, output := helpText, cache := launch.cache.names }
  | .version => { exitCode := 0, output := versionText, cache := launch.cache.names }
  | .misuse => { exitCode := 2, cache := launch.cache.names }
  | .run settings =>
    match chooseFilter? settings.logFilter launch.logVariable with
    | some filter => runWith labels launch settings filter
    | none =>
      { exitCode := abortCode, log := settings.complaints, cache := launch.cache.names }

end Program
end QasmHighlight
