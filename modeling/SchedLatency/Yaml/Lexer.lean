import SchedLatency.Yaml.Block
import SchedLatency.Yaml.Directive
import SchedLatency.Yaml.Plain
import SchedLatency.Yaml.Quoted

namespace SchedLatency.Yaml

structure Indent where
  outer : Int
  /-- Has it opened a block collection, or does it only demand that a value is indented? -/
  isBlock : Bool
  deriving DecidableEq

structure KeyPlace where
  /-- Does the indentation leave nothing else than a key? -/
  required : Bool
  number : Nat
  index : Nat
  line : Nat
  column : Nat
  deriving DecidableEq

structure FlowLevel where
  isSequence : Bool
  outerKey : Option KeyPlace
  explicit : Bool
  /-- Is the entry under way a pair that stands for a mapping? -/
  inPair : Bool
  deriving DecidableEq

structure Lexer where
  cursor : Cursor
  tokens : List Token
  count : Nat
  propertyAt : Option Nat
  indent : Int
  indents : List Indent
  flow : List FlowLevel
  keyAllowed : Bool
  key : Option KeyPlace
  /-- Where a colon counts although no gap follows, since a quoted scalar or a collection has just
  ended there. -/
  adjacent : Option Nat
  ended : Bool

namespace Lexer

def start (text : List Char) : Lexer where
  cursor := .start text
  tokens := []
  count := 0
  propertyAt := none
  indent := -1
  indents := []
  flow := []
  keyAllowed := true
  key := none
  adjacent := none
  ended := false

def inFlow (s : Lexer) : Bool := !s.flow.isEmpty

def inBlock (s : Lexer) : Bool := !s.indents.isEmpty

def push (s : Lexer) (t : Token) : Lexer :=
  {s with tokens := t :: s.tokens,count := s.count+1,propertyAt := none}

def pushProperty (s : Lexer) (t : Token) (column : Nat) : Lexer :=
  {s.push t with propertyAt := some column}

def insertAt (s : Lexer) (number : Nat) (t : Token) : Lexer :=
  let behind := s.count-number
  {s with tokens := s.tokens.take behind++t :: s.tokens.drop behind,count := s.count+1}

/-- Forgets the indentation steps on top that have opened no collection. -/
def dropHanging (indent : Int) : List Indent → Int×List Indent
  | [] => (indent,[])
  | i :: rest => if i.isBlock then (indent,i :: rest) else dropHanging i.outer rest

def unhang (s : Lexer) : Lexer :=
  let (indent,indents) := dropHanging s.indent s.indents
  {s with indent := indent,indents := indents}

/-- Demands that what follows is indented by at least one column more than the block. -/
def hang (s : Lexer) : Lexer :=
  match s.indents with
  | i :: _ =>
    if !s.inFlow && i.isBlock then
      {s with indent := s.indent+1,indents := ⟨s.indent,false⟩ :: s.indents}
    else s
  | [] => s

/-- Opens a block collection in a column, unless one is open there. Its token is appended, or put
behind the first `number` tokens. -/
def openBlock (s : Lexer) (column : Nat) (number : Option Nat) (t : Token) : Lexer :=
  if s.inFlow then s
  else
    let s : Lexer := match s.indents with
      | i :: rest =>
        if !i.isBlock && s.indent≤(column : Int) then {s with indent := i.outer,indents := rest}
        else s
      | [] => s
    if s.indent<column then
      let s := {s with indent := (column : Int),indents := ⟨s.indent,true⟩ :: s.indents}
      match number with
      | some n => s.insertAt n t
      | none => s.push t
    else s

def closeBlocks (column : Int) (s : Lexer) : List Indent → Lexer
  | [] => {s with indents := []}
  | i :: rest =>
    if s.indent≤column then {s with indents := i :: rest}
    else
      let s := {s with indent := i.outer}
      closeBlocks column (if i.isBlock then s.push .blockEnd else s) rest

def dedent (s : Lexer) (column : Int) : Lexer :=
  if s.inFlow then s else closeBlocks column s s.indents

def allowKey (s : Lexer) : Lexer := {s with keyAllowed := true}

def saveKey (s : Lexer) : Lexer :=
  if s.keyAllowed then
    let c := s.cursor
    let isBlock := (s.indents.head?.map (·.isBlock)).getD false
    let required := !s.inFlow && s.indent=c.column && isBlock
    {s with key := some ⟨required,s.count,c.index,c.line,c.column⟩}
  else s

/-- Gives up the place of a key; a fault if only a key could have stood there. -/
def dropKey? (s : Lexer) : Option Lexer :=
  match s.key with
  | some k => if k.required then none else some {s with key := none}
  | none => some s

def keyReach : Nat := 1024

def expireKey? (s : Lexer) : Option Lexer :=
  match s.key with
  | some k =>
    if !s.inFlow && (k.line<s.cursor.line || k.index+keyReach<s.cursor.index) then s.dropKey?
    else some s
  | none => some s

def toToken? (s : Lexer) : Option Lexer := do
  let (c,ended) ← s.cursor.toToken? ⟨s.inBlock,s.indent⟩ (s.cursor.rest.length+1) false
  return {s with cursor := c,keyAllowed := s.keyAllowed || (ended && !s.inFlow)}

def finish? (s : Lexer) : Option Lexer := do
  let s ← s.dropKey?
  return {s.dedent (-1) with ended := true}

def directive? (s : Lexer) : Option Lexer := do
  let s ← (s.dedent (-1)).dropKey?
  let (t,c) ← Directive.read? s.cursor
  return {s.push t with cursor := c,keyAllowed := false}

def marker? (s : Lexer) : Option Lexer := do
  let s ← (s.dedent (-1)).dropKey?
  let isStart := s.cursor.char = '-'
  let s := {s with cursor := s.cursor.skip 3,keyAllowed := false}
  if isStart then return s.push .documentStart
  let c ← s.cursor.toLineEnd?
  if !isLineEnd c.char then none
  return {s.push .documentEnd with cursor := c}

def openFlow? (s : Lexer) (isSequence : Bool) : Option Lexer := do
  let s := s.saveKey.hang
  if 255 ≤ s.flow.length then none
  let c ← (s.cursor.skip 1).toLineEnd?
  return {s.push (if isSequence then .flowSequence else .flowMapping) with
    cursor := c,flow := ⟨isSequence,s.key,false,false⟩ :: s.flow,key := none,keyAllowed := true}

def endEntry (s : Lexer) : Lexer :=
  match s.flow with
  | level :: rest =>
    let t := {s with flow := {level with explicit := false,inPair := false} :: rest}
    if level.inPair then t.push .flowMappingEnd else t
  | [] => s

def closeFlow? (s : Lexer) (isSequence : Bool) : Option Lexer := do
  let s ← s.dropKey?
  let s := s.endEntry
  let c ← (s.cursor.skip 1).toLineEnd?
  let s : Lexer := match s.flow with
    | level :: rest => {s with flow := rest,key := level.outerKey}
    | [] => s
  return {s.push (if isSequence then .flowSequenceEnd else .flowMappingEnd) with
    cursor := c,keyAllowed := false,
    adjacent := if s.inFlow then some c.index else s.adjacent}

def comma? (s : Lexer) : Option Lexer := do
  let s ← s.dropKey?
  let s := s.endEntry
  let c ← (s.cursor.skip 1).toLineEnd?
  return {s.push .flowEntry with cursor := c,keyAllowed := true}

/-- A dash. It may not stand where a key may not, and behind a tab no further dash may follow. -/
def dash? (s : Lexer) : Option Lexer := do
  if s.inFlow || !s.keyAllowed then none
  if s.cursor.column=0 && s.propertyAt=some 0 && (-1)<s.indent then none
  let behind := s.cursor.skip 1
  let s := s.openBlock s.cursor.column none .blockSequence
  let c ← behind.toLineEnd?
  let tabbed := (behind.run isSpace).contains '\t'
  if tabbed && c.char = '-' && isGap (c.ahead 1) then none
  let s := {s with cursor := c}
  let s := if isBreak c.char || isFlow c.char then s.hang else s
  return (← s.dropKey?).allowKey.push .entry

def passSpace? : Nat → Cursor → Bool → Bool → Option (Cursor×Bool)
  | 0,_,_,_ => none
  | fuel+1,c,any,ended =>
    if c.char = ' ' then passSpace? fuel (c.pass 1) true ended
    else if isBreak c.char then passSpace? fuel c.nextLine true true
    else if c.char = '#' then passSpace? fuel c.skipLine any ended
    else if any then some (c,ended) else none

def explicitKey? (s : Lexer) : Option Lexer := do
  if !s.inFlow && !s.keyAllowed then none
  let s := s.openBlock s.cursor.column none .blockMapping
  let s : Lexer := match s.flow with
    | level :: rest => {s with flow := {level with explicit := true} :: rest}
    | [] => s
  let s ← s.dropKey?
  let c := s.cursor.skip 1
  let (c,_) ← passSpace? (c.rest.length+1) c false false
  if c.char = '\t' then none
  return {s.push .key with cursor := c,keyAllowed := !s.inFlow}

/-- Is the entry under way the first half of a pair that stands for a mapping? -/
def opensPair (s : Lexer) : Bool :=
  match s.flow with
  | level :: _ => level.isSequence && !level.explicit && !level.inPair
  | [] => false

def enterPair (s : Lexer) : Lexer :=
  match s.flow with
  | level :: rest => {s with flow := {level with inPair := true} :: rest}
  | [] => s

def valueOf? (s : Lexer) (k : KeyPlace) : Option Lexer := do
  let line := s.cursor.line
  let pair := s.opensPair
  if pair && k.line<line then none
  let s := s.insertAt k.number .key
  let s := if pair then (s.insertAt k.number .flowMapping).enterPair else s
  let s := (s.openBlock k.column (some k.number) .blockMapping).hang
  return {s with key := none,keyAllowed := false}

def valueAlone? (s : Lexer) (column : Nat) : Option Lexer := do
  let s := if s.opensPair then (s.push .flowMapping).enterPair else s
  if !s.inFlow && !s.keyAllowed then none
  let s := (s.openBlock column none .blockMapping).hang
  return {s with keyAllowed := !s.inFlow}

/-- A colon. Behind a tab and no space, what begins like a word or with a dash is a fault. -/
def value? (s : Lexer) : Option Lexer := do
  let column := s.cursor.column
  let c := s.cursor.skip 1
  let spaces := c.run isSpace
  let d ← if c.char = '\t' then c.toLineEnd? else some c
  if c.char = '\t' && !spaces.contains ' ' && (d.char = '-' || Tag.isNameChar d.char) then none
  let s ← match s.key with
    | some k => s.valueOf? k
    | none => s.valueAlone? column
  return {s.push .value with cursor := d}

def alias? (s : Lexer) : Option Lexer := do
  let s := s.saveKey
  let (name,c) ← Tag.readAnchor? s.cursor
  return {s.push (.alias name) with cursor := c,keyAllowed := false}

def anchor? (s : Lexer) : Option Lexer := do
  let s := s.saveKey
  let (name,c) ← Tag.readAnchor? s.cursor
  return {s.pushProperty (.anchor name) s.cursor.column with cursor := c,keyAllowed := false}

def tag? (s : Lexer) : Option Lexer := do
  let s := s.saveKey
  let (handle,suffix,c) ← Tag.read? s.inFlow s.cursor
  return {s.pushProperty (.tag handle suffix) s.cursor.column with cursor := c,keyAllowed := false}

def block? (s : Lexer) (literal : Bool) : Option Lexer := do
  let s := s.saveKey.unhang
  let (text,c) ← Block.read? literal s.indent s.cursor
  return {s.push (.scalar false text) with cursor := c,keyAllowed := true}

def quoted? (s : Lexer) (single : Bool) : Option Lexer := do
  let s := s.saveKey
  let (text,c) ← Quoted.read? single s.inFlow s.indent s.cursor
  let s ← toToken? {s with cursor := c,keyAllowed := false}
  return {s.push (.scalar false text) with adjacent := some s.cursor.index}

def plain? (s : Lexer) : Option Lexer := do
  let s := s.saveKey.unhang
  let (text,c) ← Plain.read? s.inFlow (s.indent+1) s.cursor
  return {s.push (.scalar true text) with cursor := c,keyAllowed := c.fresh}

/-- Does a colon with this character behind it separate a key from its value? -/
def separates (s : Lexer) (next : Char) : Bool :=
  isGap next || (s.inFlow && (isFlow next || s.adjacent=some s.cursor.index))

def readToken? (s : Lexer) : Option Lexer :=
  let c := s.cursor.char
  let next := s.cursor.ahead 1
  if c = '[' then s.openFlow? true
  else if c = '\x7b' then s.openFlow? false
  else if c = ']' then s.closeFlow? true
  else if c = '\x7d' then s.closeFlow? false
  else if c = ',' then s.comma?
  else if c = '-' && isGap next then s.dash?
  else if c = '?' && isGap next then s.explicitKey?
  else if c = ':' && s.separates next then s.value?
  else if c = '*' then s.alias?
  else if c = '&' then s.anchor?
  else if c = '!' then s.tag?
  else if c = '|' && !s.inFlow then s.block? true
  else if c = '>' && !s.inFlow then s.block? false
  else if c = '\'' then s.quoted? true
  else if c = '"' then s.quoted? false
  else if c = '%' || c = '@' || c = '\x60' then none
  else s.plain?

def next? (s : Lexer) : Option Lexer := do
  let s ← (← s.toToken?).expireKey?
  let s := s.dedent s.cursor.column
  if s.cursor.char=ending then s.finish?
  else if s.cursor.column=0 && s.cursor.char = '%' then s.directive?
  else if s.cursor.atMarker then s.marker?
  else if s.cursor.column<s.indent then none
  else s.readToken?

def readAll? : Nat → Lexer → Option Lexer
  | 0,_ => none
  | fuel+1,s => if s.ended then some s else (s.next?).bind (readAll? fuel)

end Lexer

def Token.ofText? (text : List Char) : Option (List Token) :=
  (Lexer.readAll? (text.length+2) (.start text)).map (·.tokens.reverse)

end SchedLatency.Yaml
