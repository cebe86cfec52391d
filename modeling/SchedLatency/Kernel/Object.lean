namespace SchedLatency.Kernel

inductive MapKind where
  | hash
  | lruHash
  | array
  | queue
  deriving DecidableEq, Repr

def MapKind.number : MapKind → Nat
  | hash => 1
  | array => 2
  | lruHash => 9
  | queue => 22

/-- Has a map of this kind keys of its own, by which its entries are looked up? -/
def MapKind.isHash : MapKind → Bool
  | hash | lruHash => true
  | array | queue => false

structure MapShape where
  name : String
  kind : MapKind
  keySize : Nat
  valueSize : Nat
  deriving DecidableEq, Repr

inductive ProgramKind where
  | rawTracepoint
  | other
  deriving DecidableEq, Repr

def ProgramKind.ofSection (name : String) : ProgramKind :=
  let kind := name.toList.takeWhile (· ≠ '/')
  if kind = "raw_tracepoint".toList || kind = "raw_tp".toList then .rawTracepoint else .other

structure Program where
  name : String
  kind : ProgramKind
  deriving DecidableEq, Repr

structure Object where
  maps : List MapShape
  programs : List Program
  deriving DecidableEq, Repr

end SchedLatency.Kernel
