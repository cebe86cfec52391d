import SchedLatency.Association
import SchedLatency.Text.Lowercase

namespace SchedLatency.Config

inductive Scalar where
  | null
  | bool (b : Bool)
  | integer (n : Int)
  | float (x : Float)
  | text (s : String)
  deriving DecidableEq

inductive Value where
  | scalar (origin : Option String) (s : Scalar)
  | list (origin : Option String) (items : List Value)
  | table (origin : Option String) (entries : List (String×Value))

namespace Value

instance : Inhabited Value := ⟨.scalar none .null⟩

def unset : Value := .scalar none .null

def emptyTable : Value := .table none []

def origin : Value → Option String
  | scalar o _ | list o _ | table o _ => o

def entries : Value → List (String×Value)
  | table _ es => es
  | _ => []

/-- The value itself if it is a table, else an empty one in its place. -/
def asTable : Value → Value
  | table o es => table o es
  | _ => emptyTable

def get? (v : Value) (key : String) : Option Value := v.entries.lookup key

def withEntry (v : Value) (key : String) (new : Value) : Value :=
  match v with
  | table o es => table o (Association.set key new es)
  | _ => table none [(key,new)]

mutual

/-- Puts a value under a key. A table is merged into what stands there, which has to become a
table for that as soon as there is something to merge; any other value takes its place. -/
def put (key : String) (root : Value) : Value → Value
  | table _ es =>
    let key := Text.lower key
    let root := root.asTable
    root.withEntry key (merge ((root.get? key).getD emptyTable) es)
  | scalar o s => root.asTable.withEntry (Text.lower key) (scalar o s)
  | list o items => root.asTable.withEntry (Text.lower key) (list o items)

def merge (target : Value) : List (String×Value) → Value
  | [] => target
  | (k,v) :: rest => merge (put k target v) rest

end

theorem get?_withEntry (key : String) (new v : Value) (k : String) :
    (v.asTable.withEntry key new).get? k=if k == key then some new else v.asTable.get? k := by
  cases v <;> simp [asTable,emptyTable,withEntry,get?,entries,Association.lookup_set]

end Value

/-- The order in which tables give out their entries. -/
structure KeyOrder where
  arrange : List (String×Value) → List (String×Value)
  perm : ∀ entries,(arrange entries).Perm entries

namespace KeyOrder

def asHeld : KeyOrder := ⟨id,fun _ => .refl _⟩

mutual

/-- A value whose tables hold their entries in the order in which they give them out. -/
def value (order : KeyOrder) : Value → Value
  | .table o es => .table o (order.arrange (order.values es))
  | .scalar o s => .scalar o s
  | .list o items => .list o items

def values (order : KeyOrder) : List (String×Value) → List (String×Value)
  | [] => []
  | (key,v) :: rest => (key,order.value v) :: order.values rest

end

def ofEntries (order : KeyOrder) (entries : List (String×Value)) : List (String×Value) :=
  order.arrange (order.values entries)

end KeyOrder
end SchedLatency.Config
