import SchedLatency.Decimal.Reading
import SchedLatency.Yaml.Lexer

namespace SchedLatency.Yaml

inductive Node where
  | null
  | bool (b : Bool)
  | integer (n : Int)
  | real (text : String)
  | text (s : String)
  /-- A scalar that its tag does not allow, or an alias to a node that is not complete. -/
  | bad
  | list (items : List Node)
  | table (pairs : List (Node×Node))
  deriving BEq

namespace Node

def nonNumbers : List String :=
  [".inf",".Inf",".INF","+.inf","+.Inf","+.INF","-.inf","-.Inf","-.INF",".nan",".NaN",".NAN"]

def isReal (s : String) : Bool :=
  s∈nonNumbers || (s.toList.any Char.isDigit && (Decimal.double? s).isSome)

/-- An integer with a mark in front: of base 16, of base 8, or a plus sign. -/
def markedInteger? (s : String) : Option Int :=
  match s.toList with
  | '0' :: 'x' :: rest => Decimal.signedWord? 16 rest
  | '0' :: 'o' :: rest => Decimal.signedWord? 8 rest
  | '+' :: rest => Decimal.signedWord? 10 rest
  | _ => none

def ofPlain (s : String) : Node :=
  match markedInteger? s with
  | some n => integer n
  | none =>
    if s∈["","~","null"] then null
    else if s∈["true","True","TRUE"] then bool true
    else if s∈["false","False","FALSE"] then bool false
    else match Decimal.signedWord? 10 s.toList with
      | some n => integer n
      | none => if isReal s then real s else text s

def commonHandle : String := "tag:yaml.org,2002:"

def ofTagged (handle suffix s : String) : Node :=
  if handle≠commonHandle then text s
  else if suffix = "bool" then
    if s = "true" then bool true else if s = "false" then bool false else bad
  else if suffix = "int" then
    match Decimal.signedWord? 10 s.toList with
    | some n => integer n
    | none => bad
  else if suffix = "float" then if isReal s then real s else bad
  else if suffix = "null" then if s = "~" || s = "null" then null else bad
  else text s

def isBad : Node → Bool
  | bad => true
  | _ => false

/-- Pairs nodes that follow each other. A bad key does not count, so that the next node becomes
the key. Fails when a key stands there twice. -/
def pairUp? (pairs : List (Node×Node)) (key : Node) : List Node → Option (List (Node×Node))
  | [] => some pairs
  | n :: rest =>
    if key.isBad then pairUp? pairs n rest
    else if pairs.any (·.1==key) then none
    else pairUp? (pairs++[(key,n)]) bad rest

def ofFlat? (nodes : List Node) : Option Node := (pairUp? [] bad nodes).map table

end Node

structure TokenReader where
  tokens : List Token
  handles : List (String×String)
  anchors : List (String×Nat)
  nodes : List (Nat×Node)

namespace TokenReader

abbrev Reads (α : Type) := StateT TokenReader Option α

def peek : Reads (Option Token) := do return (← get).tokens.head?

def skip : Reads Unit := modify fun r => {r with tokens := r.tokens.tail}

def accept (t : Token) : Reads Bool := do
  if (← peek)=some t then skip; return true else return false

def sees (ts : List Token) : Reads Bool := do
  match ← peek with
  | some t => return t∈ts
  | none => return false

def resolveTag (handle suffix : String) : Reads (String×String) := do
  let handles := (← get).handles
  if handle = "!!" then return ((handles.lookup "!!").getD Node.commonHandle,suffix)
  else match handles.lookup handle with
    | some meaning => return (meaning,suffix)
    | none => if Tag.isClosed handle then failure else return (handle,suffix)

def declare (name : String) : Reads Nat := do
  let r ← get
  let n := r.anchors.length
  set {r with anchors := (name,n) :: r.anchors}
  return n

def resolveAlias (name : String) : Reads Node := do
  let r ← get
  match r.anchors.lookup name with
  | some n => return (r.nodes.lookup n).getD .bad
  | none => failure

structure Properties where
  tag : Option (String×String)
  anchor : Option Nat

def tag? : Reads (Option (String×String)) := do
  match ← peek with
  | some (.tag handle suffix) => skip; return some (← resolveTag handle suffix)
  | _ => return none

def anchor? : Reads (Option Nat) := do
  match ← peek with
  | some (.anchor name) => skip; return some (← declare name)
  | _ => return none

def properties : Reads Properties := do
  match ← anchor? with
  | some n => return ⟨← tag?,some n⟩
  | none =>
    match ← tag? with
    | some t => return ⟨some t,← anchor?⟩
    | none => return ⟨none,none⟩

def keep (anchor : Option Nat) (n : Node) : Reads Node := do
  match anchor with
  | some k => modify fun r => {r with nodes := (k,n) :: r.nodes}
  | none => pure ()
  return n

def scalar (tag : Option (String×String)) (plain : Bool) (s : String) : Node :=
  if !plain then .text s
  else match tag with
    | some (handle,suffix) => .ofTagged handle suffix s
    | none => .ofPlain s

def table (nodes : List Node) : Reads Node := StateT.lift (Node.ofFlat? nodes)

mutual

/-- Reads a node. Block collections count only if `block`, and a list without indentation of its
own only if `indentless`. -/
def node (block indentless : Bool) : Nat → Reads Node
  | 0 => failure
  | fuel+1 => do
    match ← peek with
    | some (.alias name) => skip; resolveAlias name
    | _ =>
      let p ← properties
      match ← peek with
      | some (.scalar plain s) => skip; keep p.anchor (scalar p.tag plain s)
      | some .flowSequence =>
        skip
        keep p.anchor (.list (← flowItems true fuel))
      | some .flowMapping =>
        skip
        keep p.anchor (← table (← flowPairs true fuel))
      | other =>
        if indentless && other=some .entry then
          keep p.anchor (.list (← looseItems fuel))
        else if block && other=some .blockSequence then
          skip
          keep p.anchor (.list (← blockItems fuel))
        else if block && other=some .blockMapping then
          skip
          keep p.anchor (← table (← blockPairs fuel))
        else if p.tag.isSome || p.anchor.isSome then keep p.anchor (scalar p.tag true "")
        else failure

def blockItems : Nat → Reads (List Node)
  | 0 => failure
  | fuel+1 => do
    if ← accept .blockEnd then return []
    else if ← accept .entry then
      let item ← if ← sees [.entry,.blockEnd] then pure .null else node true false fuel
      return item :: (← blockItems fuel)
    else failure

def looseItems : Nat → Reads (List Node)
  | 0 => failure
  | fuel+1 => do
    if ← accept .entry then
      let item ←
        if ← sees [.entry,.key,.value,.blockEnd] then pure .null else node true false fuel
      return item :: (← looseItems fuel)
    else return []

def blockPairs : Nat → Reads (List Node)
  | 0 => failure
  | fuel+1 => do
    if ← accept .blockEnd then return []
    else
      let key ←
        if ← accept .key then
          if ← sees [.key,.value,.blockEnd] then pure .null else node true true fuel
        else if ← sees [.value] then pure .null
        else failure
      let value ←
        if ← accept .value then
          if ← sees [.key,.value,.blockEnd] then pure .null else node true true fuel
        else pure .null
      return key :: value :: (← blockPairs fuel)

def flowItems (first : Bool) : Nat → Reads (List Node)
  | 0 => failure
  | fuel+1 => do
    if ← accept .flowSequenceEnd then return []
    if !first then
      if !(← accept .flowEntry) then failure
      if ← accept .flowSequenceEnd then return []
    let item ←
      if ← accept .key then flowPair fuel else node false false fuel
    return item :: (← flowItems false fuel)

/-- A pair with an explicit key among the items of a list. Whatever ends an empty key is passed
over. -/
def flowPair : Nat → Reads Node
  | 0 => failure
  | fuel+1 => do
    let key ←
      if ← sees [.value,.flowEntry,.flowSequenceEnd] then skip; pure .null
      else node false false fuel
    let value ←
      if ← accept .value then
        if ← sees [.flowEntry,.flowSequenceEnd] then pure .null else node false false fuel
      else pure .null
    table [key,value]

def flowPairs (first : Bool) : Nat → Reads (List Node)
  | 0 => failure
  | fuel+1 => do
    if ← accept .flowMappingEnd then return []
    if !first then
      if !(← accept .flowEntry) then failure
      if ← accept .flowMappingEnd then return []
    if ← accept .key then
      let key ←
        if ← sees [.value,.flowEntry,.flowMappingEnd] then pure .null else node false false fuel
      let value ← flowValue fuel
      return key :: value :: (← flowPairs false fuel)
    else if ← sees [.value] then
      let value ← flowValue fuel
      return .null :: value :: (← flowPairs false fuel)
    else
      let key ← node false false fuel
      return key :: .null :: (← flowPairs false fuel)

def flowValue : Nat → Reads Node
  | 0 => failure
  | fuel+1 => do
    if ← accept .value then
      if ← sees [.flowEntry,.flowMappingEnd] then pure .null else node false false fuel
    else pure .null

end

/-- Goes over the directives in front of a document, of which at most one names the version. The
last one alone says what a handle stands for. Gives the number of directives. -/
def directives (versioned : Bool) : Nat → Reads Nat
  | 0 => failure
  | fuel+1 => do
    match ← peek with
    | some .version =>
      if versioned then failure
      skip
      modify fun r => {r with handles := []}
      return (← directives true fuel)+1
    | some (.tagHandle handle meaning) =>
      skip
      modify fun r => {r with handles := [(handle,meaning)]}
      return (← directives versioned fuel)+1
    | _ => return 0

def isBare : Reads Bool := do
  match ← peek with
  | none | some .version | some (.tagHandle _ _) | some .documentStart | some .documentEnd =>
    return true
  | _ => return false

def passEnds : Nat → Reads Unit
  | 0 => failure
  | fuel+1 => do if ← accept .documentEnd then passEnds fuel else pure ()

/-- The documents up to the end. A document needs a mark at its beginning unless it is the first
one or the one before it has a mark at its end, and it has no directives. -/
def documents (unmarked : Bool) : Nat → Reads (List Node)
  | 0 => failure
  | fuel+1 => do
    passEnds (fuel+1)
    if (← peek).isNone then return []
    let count ← directives false (fuel+1)
    let root ←
      if ← accept .documentStart then if ← isBare then pure .null else node true false fuel
      else if unmarked && count=0 then node true false fuel
      else failure
    modify fun r => {r with handles := []}
    let ended ← accept .documentEnd
    match ← peek with
    | some .version | some (.tagHandle _ _) => if !ended then failure
    | _ => pure ()
    return root :: (← documents ended fuel)

end TokenReader

def Node.ofText? (text : List Char) : Option (List Node) := do
  let tokens ← Token.ofText? text
  let (roots,_) ← TokenReader.documents true (4*tokens.length+4) ⟨tokens,[],[],[]⟩
  return roots

end SchedLatency.Yaml
