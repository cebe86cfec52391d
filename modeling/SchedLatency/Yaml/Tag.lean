import SchedLatency.Decimal.Reading
import SchedLatency.Yaml.Cursor

namespace SchedLatency.Yaml.Tag

def isNameChar (c : Char) : Bool := c.isAlphanum || c = '_' || c = '-'

def isAddressChar (c : Char) : Bool :=
  c.isAlphanum || c = '-' || "#;/?:@&=+$,_.!~*'()[]%".toList.contains c

def isSuffixChar (c : Char) : Bool := isAddressChar c && !isFlow c && c ≠ '!'

def isAnchorChar (c : Char) : Bool := !isGap c && !isFlow c && c ≠ '\ufeff'

def readAnchor? (c : Cursor) : Option (String×Cursor) :=
  let name := (c.skip 1).run isAnchorChar
  if name.isEmpty then none else some (String.ofList name,c.skip (1+name.length))

def byteCount? (byte : Nat) : Option Nat :=
  if byte<0x80 then some 1 else if byte/0x20=6 then some 2
  else if byte/0x10=14 then some 3 else if byte/8=30 then some 4 else none

def byte? (c : Cursor) : Option Nat :=
  if c.char = '%' then Decimal.natural? 16 [c.ahead 1,c.ahead 2] else none

def moreBytes? : Nat → Nat → Cursor → Option (Nat×Cursor)
  | 0,code,c => some (code,c)
  | more+1,code,c => do
    let byte ← byte? c
    if byte/0x40=2 then moreBytes? more (code*256+byte) (c.skip 3) else none

/-- Reads the bytes of one character. Its number has the bytes as its digits. -/
def escaped? (c : Cursor) : Option (Char×Cursor) := do
  let byte ← byte? c
  let n ← byteCount? byte
  let (code,c) ← moreBytes? (n-1) byte (c.skip 3)
  if code.isValidChar then return (Char.ofNat code,c) else none

/-- Reads characters that satisfy a condition, of which escapes stand for others. -/
def readAddress? (p : Char → Bool) : Nat → Cursor → List Char → Option (List Char×Cursor)
  | 0,c,text => some (text.reverse,c)
  | fuel+1,c,text =>
    if !p c.char then some (text.reverse,c)
    else if c.char = '%' then do
      let (x,c) ← escaped? c
      readAddress? p fuel c (x :: text)
    else readAddress? p fuel (c.skip 1) (c.char :: text)

def address? (p : Char → Bool) (c : Cursor) : Option (String×Cursor) :=
  (readAddress? p (c.rest.length+1) c []).map fun (text,c) => (String.ofList text,c)

/-- Reads a handle: an exclamation mark, and a name with another one if there are any. -/
def readHandle? (c : Cursor) : Option (String×Cursor) :=
  if c.char ≠ '!' then none
  else
    let name := (c.skip 1).run isNameChar
    let c := c.skip (1+name.length)
    if c.char = '!' then some (String.ofList ('!' :: name++['!']),c.skip 1)
    else some (String.ofList ('!' :: name),c)

def isClosed (handle : String) : Bool :=
  handle.length≥2 && handle.toList.getLast? = some '!'

def readParts? (c : Cursor) : Option (String×String×Cursor) :=
  if c.ahead 1 = '<' then do
    let (suffix,c) ← address? isAddressChar (c.skip 2)
    if c.char = '>' then return ("",suffix,c.skip 1) else none
  else do
    let (handle,c) ← readHandle? c
    let (suffix,c) ← address? isSuffixChar c
    if isClosed handle then
      if suffix = "" then none else return (handle,suffix,c)
    else
      let suffix := (handle.drop 1).toString++suffix
      if suffix = "" then return ("","!",c) else return ("!",suffix,c)

def read? (flow : Bool) (c : Cursor) : Option (String×String×Cursor) := do
  let (handle,suffix,c) ← readParts? c
  if isGap c.char || (flow && isFlow c.char) then return (handle,suffix,c) else none

end SchedLatency.Yaml.Tag
