import SchedLatency.Config.Value
import SchedLatency.Decimal.Reading

namespace SchedLatency.Config

inductive Step where
  | key (name : String)
  /-- Position in a list; a negative one counts from the end. -/
  | index (i : Int)
  deriving DecidableEq, Repr

structure KeyPath where
  head : String
  steps : List Step
  deriving DecidableEq, Repr

namespace KeyPath

def isKeyChar (c : Char) : Bool := c.isAlphanum || c == ' ' || c == '_' || c == '-'

def key? (cs : List Char) : Option (String×List Char) :=
  let name := cs.takeWhile isKeyChar
  if name.isEmpty then none else some (String.ofList name,cs.dropWhile isKeyChar)

def index? (text : List Char) : Option Int :=
  let isGap (c : Char) := c == ' ' || c == '\t'
  let inner := ((text.dropWhile isGap).reverse.dropWhile isGap).reverse
  if inner.head? == some '+' then none else Decimal.signedWord? 10 inner

def steps? : Nat → List Char → Option (List Step)
  | _,[] => some []
  | 0,_ => none
  | fuel+1,'.' :: rest => do
    let (name,rest) ← key? rest
    return .key name :: (← steps? fuel rest)
  | fuel+1,'[' :: rest => do
    let inner := rest.takeWhile (· ≠ ']')
    let i ← index? inner
    match rest.dropWhile (· ≠ ']') with
    | _ :: rest => return .index i :: (← steps? fuel rest)
    | [] => none
  | _,_ => none

def parse? (text : String) : Option KeyPath := do
  let (head,rest) ← key? text.toList
  return ⟨head,← steps? rest.length rest⟩

end KeyPath

namespace Value

/-- The items of a list with its origin; other values give way to an empty list. -/
def asList : Value → Option String×List Value
  | list o items => (o,items)
  | _ => (none,[])

def longestList : Nat := Nat.pow 2 28

/-- Where an index points in a list of `size` items, unless it lies before the first one or beyond
the longest list. -/
def position? (i : Int) (size : Nat) : Option Nat :=
  let place := if i<0 then i+size else i
  if 0≤place ∧ place<longestList then some place.toNat else none

def growTo (items : List Value) (n : Nat) : List Value :=
  items++List.replicate (n+1-items.length) unset

/-- Assigns a value at the end of some steps. Fails only on an index that points nowhere. -/
def assign (new : Value) : List Step → Value → Option Value
  | [],_ => some new
  | [.key name],root => some (put name root new)
  | .key name :: rest,root => do
    let key := Text.lower name
    let root := root.asTable
    let inner ← assign new rest ((root.get? key).getD unset)
    return root.withEntry key inner
  | .index i :: rest,root => do
    let (origin,items) := root.asList
    let n ← position? i items.length
    let items := growTo items n
    let inner ← assign new rest (items[n]?.getD unset)
    return .list origin (items.set n inner)

/-- Sets what a source calls `key`: the value at the end of the path, or under the whole text if
it is no path. -/
def absorb (root : Value) (key : String) (new : Value) : Option Value :=
  match KeyPath.parse? key with
  | some path => assign new (.key path.head :: path.steps) root
  | none => some (put key root new)

def absorbAll (root : Value) : List (String×Value) → Option Value
  | [] => some root
  | (key,new) :: rest => do absorbAll (← root.absorb key new) rest

end Value
end SchedLatency.Config
