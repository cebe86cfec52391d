import SchedLatency.Yaml.Tag
import SchedLatency.Yaml.Token

namespace SchedLatency.Yaml.Directive

def number? (c : Cursor) : Option Cursor :=
  let digits := c.run Char.isDigit
  if digits.isEmpty || 9<digits.length then none else some (c.skip digits.length)

def version? (c : Cursor) : Option (Token×Cursor) := do
  let c ← number? c.passSpaces
  if c.char ≠ '.' then none
  return (.version,← number? (c.skip 1))

def meaning? (c : Cursor) : Option (String×Cursor) := do
  if c.char = '!' then
    let (text,c) ← Tag.address? Tag.isAddressChar (c.skip 1)
    return ("!"++text,c)
  else if Tag.isSuffixChar c.char then Tag.address? Tag.isAddressChar c
  else none

def tagHandle? (c : Cursor) : Option (Token×Cursor) := do
  let (handle,c) ← Tag.readHandle? c.passSpaces
  if handle ≠ "!" && !Tag.isClosed handle then none
  let (meaning,c) ← meaning? c.passSpaces
  if isGap c.char then return (.tagHandle handle meaning,c) else none

def body? (name : String) (c : Cursor) : Option (Token×Cursor) :=
  if name = "YAML" then version? c
  else if name = "TAG" then tagHandle? c
  else some (.tagHandle "" "",c.skipLine)

def read? (c : Cursor) : Option (Token×Cursor) := do
  let name := (c.skip 1).run Tag.isNameChar
  if name.isEmpty then none
  let c := c.skip (1+name.length)
  if !isGap c.char then none
  let (token,c) ← body? (String.ofList name) c
  let c ← c.toLineEnd?
  if !isLineEnd c.char then none
  return (token,if isBreak c.char then c.nextLine else c)

end SchedLatency.Yaml.Directive
