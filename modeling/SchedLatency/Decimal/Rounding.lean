namespace SchedLatency.Decimal

/-- Where a quotient that lies halfway between two integers goes. -/
inductive Tie where
  | toEven
  | up
  deriving DecidableEq, Repr

def Tie.raises (tie : Tie) (num den : Nat) : Bool :=
  let rest := 2*(num%den)
  if rest<den then false
  else if rest=den then
    match tie with
    | .toEven => num/den%2==1
    | .up => true
  else true

def roundDiv (num den : Nat) (tie : Tie) : Nat :=
  if tie.raises num den then num/den+1 else num/den

end SchedLatency.Decimal
