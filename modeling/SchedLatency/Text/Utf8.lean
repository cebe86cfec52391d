namespace SchedLatency.Text.Utf8

/-- How a byte that begins a character of several bytes goes on: how many bytes follow, the value
of its own bits, and the range of the byte right behind it. -/
def lead? (b : UInt8) : Option (Nat×Nat×Nat×Nat) :=
  let n := b.toNat
  if 0xc2≤n && n≤0xdf then some (1,n-0xc0,0x80,0xbf)
  else if n=0xe0 then some (2,n-0xe0,0xa0,0xbf)
  else if n=0xed then some (2,n-0xe0,0x80,0x9f)
  else if 0xe1≤n && n≤0xef then some (2,n-0xe0,0x80,0xbf)
  else if n=0xf0 then some (3,n-0xf0,0x90,0xbf)
  else if 0xf1≤n && n≤0xf3 then some (3,n-0xf0,0x80,0xbf)
  else if n=0xf4 then some (3,n-0xf0,0x80,0x8f)
  else none

/-- Reads `more` bytes that go on a character, the first of them from the given range. Gives the
character, if it is complete, and what is left. -/
def continue_ (value low high : Nat) : Nat → List UInt8 → Option Char×List UInt8
  | 0,bytes => (some (Char.ofNat value),bytes)
  | _+1,[] => (none,[])
  | more+1,b :: rest =>
    if low≤b.toNat && b.toNat≤high then
      continue_ (value*64+(b.toNat-0x80)) 0x80 0xbf more rest
    else (none,b :: rest)

theorem length_continue_le (value low high more : Nat) (bytes : List UInt8) :
    (continue_ value low high more bytes).2.length≤bytes.length := by
  induction more generalizing value low high bytes with
  | zero => simp [continue_]
  | succ more ih =>
    cases bytes with
    | nil => simp [continue_]
    | cons b rest =>
      unfold continue_
      split
      · exact Nat.le_succ_of_le (ih _ _ _ rest)
      · exact Nat.le_refl _

def decode (bytes : List UInt8) : List (Option Char) :=
  match bytes with
  | [] => []
  | b :: rest =>
    if b.toNat<0x80 then some (Char.ofNat b.toNat) :: decode rest
    else match lead? b with
      | none => none :: decode rest
      | some (more,value,low,high) =>
        let r := continue_ value low high more rest
        r.1 :: decode r.2
termination_by bytes.length
decreasing_by
  · simp
  · simp
  · simp only [List.length_cons]
    exact Nat.lt_succ_of_le (length_continue_le _ _ _ _ _)

def decodeLossy (bytes : List UInt8) : List Char := (decode bytes).map (·.getD '\ufffd')

def mark : List UInt8 := [0xef,0xbb,0xbf]

def dropMark (bytes : List UInt8) : List UInt8 :=
  if bytes.take 3=mark then bytes.drop 3 else bytes

end SchedLatency.Text.Utf8
