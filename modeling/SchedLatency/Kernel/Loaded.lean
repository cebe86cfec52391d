import SchedLatency.Association
import SchedLatency.Decimal.Plain
import SchedLatency.Files
import SchedLatency.KeyLayout

namespace SchedLatency.Kernel

inductive Access where
  | denied
  /-- Both; these are the tracepoints of the kernel. -/
  | granted (tracepoints : List String)
  deriving DecidableEq, Repr

def notPermitted : String := "Operation not permitted (os error 1)"

abbrev Bytes := List UInt8

structure LoadedMap where
  shape : MapShape
  entries : List (Bytes×Bytes)
  deriving DecidableEq, Repr

namespace LoadedMap

def put (m : LoadedMap) (key value : Bytes) : LoadedMap :=
  {m with entries := Association.set key value m.entries}

def erase (m : LoadedMap) (key : Bytes) : LoadedMap :=
  {m with entries := m.entries.filter (·.1≠key)}

def misfit? (m : LoadedMap) (layout : KeyLayout) : Option String :=
  let sizes (what : String) (wanted actual : Nat) : String :=
    "invalid " ++ what ++ " size " ++ Decimal.digits wanted ++ ", expected " ++
      Decimal.digits actual
  if !m.shape.kind.isHash then
    some ("invalid map type " ++ Decimal.digits m.shape.kind.number)
  else if m.shape.keySize≠layout.keySize then
    some (sizes "key" layout.keySize m.shape.keySize)
  else if m.shape.valueSize≠layout.valueSize then
    some (sizes "value" layout.valueSize m.shape.valueSize)
  else none

end LoadedMap

structure Loaded where
  maps : List LoadedMap
  programs : List Program
  /-- Names of the programs that have been loaded. -/
  active : List String
  deriving DecidableEq, Repr

inductive LoadFault where
  | unreadable (path reason : String)
  | notAnObject
  | mapRefused (name : String)
  deriving DecidableEq, Repr

def LoadFault.chain : LoadFault → List String
  | unreadable path reason => ["error loading " ++ path,reason]
  | notAnObject =>
    ["error parsing BPF object: error parsing ELF data","error parsing ELF data"]
  | mapRefused name =>
    let refused := "failed to create map `" ++ name ++ "` with code -1"
    ["map error: " ++ refused,refused,notPermitted]

def load (access : Access) (o : Object) : Except LoadFault Loaded :=
  match access,o.maps with
  | .denied,m :: _ => .error (.mapRefused m.name)
  | _,maps => .ok ⟨maps.map fun m => ⟨m,[]⟩,o.programs,[]⟩

def loadFile (access : Access) (files : Files) (path : String) : Except LoadFault Loaded :=
  match files.read path with
  | .error reason => .error (.unreadable path reason)
  | .ok (.bytes _) => .error .notAnObject
  | .ok (.object o) => load access o

namespace Loaded

def map? (l : Loaded) (name : String) : Option LoadedMap := l.maps.find? (·.shape.name=name)

def mapAt (l : Loaded) (name : String) (f : LoadedMap → LoadedMap) : Loaded :=
  {l with maps := l.maps.map fun m => if m.shape.name=name then f m else m}

def pass (l : Loaded) (name : String) (layout : KeyLayout) : Pass :=
  match l.map? name with
  | none => ⟨[],some (.unavailable ("map " ++ name ++ " not found"))⟩
  | some m =>
    match m.misfit? layout with
    | some reason => ⟨[],some (.unavailable (name ++ ": " ++ reason))⟩
    | none => ⟨m.entries.map fun e => .sample (layout.decode e.1 e.2),none⟩

end Loaded
end SchedLatency.Kernel
