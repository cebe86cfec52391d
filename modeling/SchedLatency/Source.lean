namespace SchedLatency

abbrev EntityId := UInt32

structure Sample where
  entity : EntityId
  slot : UInt64
  count : UInt64
  deriving DecidableEq, Repr

inductive SourceError where
  /-- Nothing can be had from the source, so the pass is lost. -/
  | unavailable (reason : String)
  /-- A single record makes no sense; the pass goes on without it. -/
  | malformedRecord (reason : String)
  deriving DecidableEq, Repr

namespace SourceError

def isRecoverable : SourceError → Bool
  | unavailable _ => false
  | malformedRecord _ => true

def message : SourceError → String
  | unavailable reason => "sample source unavailable: " ++ reason
  | malformedRecord reason => "malformed record: " ++ reason

end SourceError

inductive Record where
  | sample (s : Sample)
  | fault (e : SourceError)
  deriving DecidableEq, Repr

namespace Record

def sample? : Record → Option Sample
  | sample s => some s
  | fault _ => none

def fault? : Record → Option SourceError
  | sample _ => none
  | fault e => some e

end Record

/-- One pass over a source: all records it hands out, then the error it ends with, if any. -/
structure Pass where
  records : List Record
  failure : Option SourceError := none
  deriving DecidableEq, Repr

def Pass.empty : Pass := ⟨[],none⟩

end SchedLatency
