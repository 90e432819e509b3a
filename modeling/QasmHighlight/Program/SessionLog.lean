/-!
# Session logs

Each run that is asked to keeps a log of its own in a cache directory.  Logs
that were last written more than a week ago are removed when a new one is begun;
whatever else is in the directory stays.
-/

namespace QasmHighlight
namespace Program

structure CacheEntry where
  name : String
  /-- The hours completed since it was last written; negative if that lies ahead. -/
  age : Int
  isDirectory : Bool

/-- The place where session logs are kept. -/
inductive Cache where
  | directory (entries : List CacheEntry)
  /-- A file stands where the directory should be. -/
  | plainFile

def retentionHours : Int := 168

def isSessionLog (name : String) : Bool :=
  "session-".toList.isPrefixOf name.toList && ".log".toList.isSuffixOf name.toList

/-- Whether an entry is removed when a new log is begun.  One that has completed
the last hour of its time is past it. -/
def CacheEntry.isExpired (entry : CacheEntry) : Bool :=
  !entry.isDirectory && isSessionLog entry.name && retentionHours ≤ entry.age

end Program
end QasmHighlight
