import QasmHighlight.Json.Reader
import QasmHighlight.Program.Clock
import QasmHighlight.Program.Run
import QasmHighlight.Protocol.Frame
import Std.Time.DateTime.Timestamp

/-!
# The program

The command line of the language server.  This module moves bytes and text
between the server and its surroundings; what is answered and what is logged is
decided elsewhere.
-/

namespace QasmHighlight
namespace Program

open Protocol

def now : IO Moment := do
  let since ← Std.Time.Timestamp.now
  return ⟨since.toMillisecondsSinceUnixEpoch.toInt.toNat⟩

structure Logger where
  filter : Log.Filter
  coloured : Bool
  sessionLog : Option IO.FS.Handle

def Logger.record (logger : Logger) (event : Log.Event) : IO Unit := do
  let time := (← now).stamp
  if logger.filter.admits event then
    IO.eprintln (event.line logger.coloured time)
  if let some file := logger.sessionLog then
    if Log.Filter.detailed.admits event then
      file.putStrLn (event.line false time)
      file.flush

def logDirectory : IO String := do
  let cache ←
    match ← IO.getEnv "XDG_CACHE_HOME" with
    | some path => if path.startsWith "/" then pure path else homeCache
    | none => homeCache
  return cache ++ "/qasm-language-server"
where
  homeCache : IO String := do
    return (← IO.getEnv "HOME").getD "" ++ "/.cache"

def cacheEntries (directory : String) (moment : Moment) : IO (List CacheEntry) := do
  let entries ← (← IO.FS.realPath directory).readDir
  entries.toList.mapM fun entry => do
    let about ← entry.path.metadata
    let seconds : Int := moment.milliseconds / 1000
    return ⟨entry.fileName, (seconds - about.modified.sec) / 3600, about.type != .file⟩

/-- Removes the session logs whose time is over and begins a new one. -/
def beginSessionLog : IO IO.FS.Handle := do
  let directory ← logDirectory
  IO.FS.createDirAll directory
  let moment ← now
  let expired := (← cacheEntries directory moment).filter CacheEntry.isExpired
  for entry in expired do
    IO.FS.removeFile (directory ++ "/" ++ entry.name)
  for line in removalLine expired.length directory do
    IO.eprintln line
  let path := directory ++ "/session-" ++ moment.compact ++ "-" ++
    padded 3 (moment.milliseconds % 1000) ++ ".log"
  let file ← IO.FS.Handle.mk path .append
  IO.eprintln ("Logging to file: \"" ++ path ++ "\"")
  return file

/-- Reads header lines up to the empty one; none at the end of the input. -/
partial def readHeader (input : IO.FS.Stream) (found : Option Nat) : IO (Option Nat) := do
  let line ← input.getLine
  if line.isEmpty then return none
  if (headerText line).isEmpty then
    match found with
    | some length => return some length
    | none => readHeader input none
  else
    readHeader input ((contentLength? line).or found)

/-- Reads a number of bytes, or fewer at the end of the input. -/
partial def readBytes (input : IO.FS.Stream) (count : Nat) (done : ByteArray) : IO ByteArray := do
  if count ≤ done.size then return done
  let more ← input.read (count - done.size).toUSize
  if more.isEmpty then return done
  readBytes input count (done ++ more)

/-- Serves the editor until it exits or closes the connection. -/
partial def serveStream (logger : Logger) (input output : IO.FS.Stream) (server : Server) :
    IO Unit := do
  if server.phase = .exited then return
  match ← readHeader input none with
  | none => return
  | some length =>
    let body ← readBytes input length .empty
    let message := (String.fromUTF8? body).bind fun text =>
      (Json.parse? text).bind Message.ofJson?
    match message with
    | none => serveStream logger input output server
    | some message =>
      let (server, reaction) := server.receive message
      for event in reaction.events do
        logger.record event
      for notice in reaction.notices do
        output.putStr (frame (noticeJson notice))
      for response in reaction.response.toList do
        output.putStr (frame response.toJson)
      output.flush
      serveStream logger input output server

def serveEditor (settings : Settings) (filter : Log.Filter) : IO UInt32 := do
  let sessionLog ←
    try
      if settings.logFile then pure (some (some (← beginSessionLog))) else pure (some none)
    catch _ => pure none
  match sessionLog with
  | none =>
    IO.eprintln cacheFailure
    return 1
  | some file =>
    let logger : Logger := ⟨filter, !settings.plainLog, file⟩
    logger.record settings.starting
    serveStream logger (← IO.getStdin) (← IO.getStdout) settings.server
    logger.record .stopped
    return 0

/-- How the program is used, for one who misused it. -/
def usageText : String :=
  "error: unexpected arguments\n\nUsage: qasm-language-server [OPTIONS]\n\n" ++
    "For more information, try '--help'.\n"

/-- Carries out what the arguments ask for and gives the exit status. -/
def start (arguments : List String) : IO UInt32 := do
  match readArguments {} arguments with
  | .help => IO.print helpText; return 0
  | .version => IO.print versionText; return 0
  | .misuse => IO.eprint usageText; return 2
  | .run settings =>
    for line in settings.complaints do
      IO.eprintln line
    match chooseFilter? settings.logFilter (← IO.getEnv "RUST_LOG") with
    | some filter => serveEditor settings filter
    | none =>
      IO.eprintln Log.DirectiveFault.insideCharacter.message
      return abortCode.toUInt32

end Program
end QasmHighlight

def main (arguments : List String) : IO UInt32 :=
  QasmHighlight.Program.start arguments
