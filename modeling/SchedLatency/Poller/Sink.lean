namespace SchedLatency

/-- What a sink makes of one write that was not interrupted. -/
inductive Reply where
  | takes (most : Nat)
  | refuses (reason : String)
  deriving DecidableEq, Repr

structure Sink where
  /-- How often the given write is interrupted before it is carried out. -/
  interruptions : Nat → Nat
  /-- What comes of the given write when so many bytes have been accepted before. -/
  reply : Nat → Nat → Reply
  flushFault : Nat → Option String

inductive WriteError where
  | refused (reason : String)
  | tookNothing
  | flushFailed (reason : String)
  deriving DecidableEq, Repr

def WriteError.message : WriteError → String
  | refused reason => reason
  | tookNothing => "failed to write whole buffer"
  | flushFailed reason => reason

namespace Sink

structure State where
  accepted : List UInt8
  writes : Nat
  attempts : Nat
  /-- How many bytes had been accepted at each flush. -/
  flushes : List Nat
  deriving DecidableEq, Repr

def State.initial : State := ⟨[],0,0,[]⟩

/-- Offers bytes until all are accepted. An interrupted write is repeated; a sink that refuses,
or takes nothing, ends the attempt, and what it took before stays accepted. -/
def writeAll (sink : Sink) (s : State) (bytes : List UInt8) : State×Option WriteError :=
  match bytes with
  | [] => (s,none)
  | first :: more =>
    if s.attempts<sink.interruptions s.writes then
      writeAll sink {s with attempts := s.attempts+1} (first :: more)
    else match sink.reply s.writes s.accepted.length with
      | .refuses reason => ({s with writes := s.writes+1,attempts := 0},some (.refused reason))
      | .takes 0 => ({s with writes := s.writes+1,attempts := 0},some .tookNothing)
      | .takes (most+1) =>
        writeAll sink
          {s with
            accepted := s.accepted++(first :: more).take (most+1)
            writes := s.writes+1
            attempts := 0}
          (more.drop most)
termination_by (bytes.length,sink.interruptions s.writes-s.attempts)
decreasing_by
  · apply Prod.Lex.right
    omega
  · apply Prod.Lex.left
    simp only [List.length_drop,List.length_cons]
    omega

/-- Writing a buffer adds a first part of it to what is accepted, all of it if and only if nothing
fails, and never flushes. -/
theorem writeAll_accepts (sink : Sink) (s : State) (bytes : List UInt8) :
    ∃ taken left,bytes=taken++left ∧
      (sink.writeAll s bytes).1.accepted=s.accepted++taken ∧
      (sink.writeAll s bytes).1.flushes=s.flushes ∧
      ((sink.writeAll s bytes).2=none ↔ left=[]) := by
  fun_induction writeAll sink s bytes with
  | case1 s => exact ⟨[],[],rfl,(List.append_nil _).symm,rfl,by simp⟩
  | case2 s first more _ ih => exact ih
  | case3 s first more _ reason _ =>
    exact ⟨[],first :: more,rfl,(List.append_nil _).symm,rfl,by simp⟩
  | case4 s first more _ _ =>
    exact ⟨[],first :: more,rfl,(List.append_nil _).symm,rfl,by simp⟩
  | case5 s first more _ most _ ih =>
    -- This write takes `most+1` bytes, the rest of the loop takes `taken` of what remains.
    obtain ⟨taken,left,split,accepted,flushes,done⟩ := ih
    refine ⟨(first :: more).take (most+1)++taken,left,?_,?_,flushes,done⟩
    · rw [List.append_assoc,←split]
      exact (List.take_append_drop (most+1) (first :: more)).symm
    · rw [accepted,List.append_assoc]

/-- Flushes once; a flush counts whether it succeeds or not. -/
def flush (sink : Sink) (s : State) : State×Option WriteError :=
  let flushes := s.flushes++[s.accepted.length]
  ({s with flushes := flushes},(sink.flushFault flushes.length).map WriteError.flushFailed)

def writeOut (sink : Sink) (s : State) (bytes : List UInt8) : State×Option WriteError :=
  match sink.writeAll s bytes with
  | (s,some e) => (s,some e)
  | (s,none) => sink.flush s

theorem writeOut_of_fault {sink : Sink} {s : State} {bytes : List UInt8} {e : WriteError}
    (h : (sink.writeAll s bytes).2=some e) :
    sink.writeOut s bytes=((sink.writeAll s bytes).1,some e) := by
  unfold writeOut
  generalize sink.writeAll s bytes=w at h ⊢
  obtain ⟨now,fault?⟩ := w
  cases h
  rfl

theorem writeOut_of_done {sink : Sink} {s : State} {bytes : List UInt8}
    (h : (sink.writeAll s bytes).2=none) :
    sink.writeOut s bytes=sink.flush (sink.writeAll s bytes).1 := by
  unfold writeOut
  generalize sink.writeAll s bytes=w at h ⊢
  obtain ⟨now,fault?⟩ := w
  cases h
  rfl

/-- The bytes accepted between flushes, and those after the last one. -/
def State.segments (s : State) : List (List UInt8) :=
  let ends := s.flushes++[s.accepted.length]
  let starts := 0 :: s.flushes
  List.zipWith (fun a b => (s.accepted.take b).drop a) starts ends

structure Limits where
  chunk : Option Nat
  capacity : Option Nat
  whenFull : Reply
  interruptions : Nat
  failingFlush : Option (Nat×String)

def anyAmount : Nat := UInt64.size-1

def limited (l : Limits) : Sink where
  interruptions write := if write=0 then l.interruptions else 0
  reply _ accepted :=
    match l.capacity.map (·-accepted) with
    | some 0 => l.whenFull
    | some room => .takes (min room (l.chunk.getD anyAmount))
    | none => .takes (l.chunk.getD anyAmount)
  flushFault n := l.failingFlush.bind fun (first,reason) => if first≤n then some reason else none

end Sink
end SchedLatency
