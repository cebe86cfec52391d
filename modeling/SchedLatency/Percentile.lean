import SchedLatency.Histogram
import SchedLatency.Decimal.Plain

namespace SchedLatency

inductive Mode where
  | bucketFloor
  | interpolated
  deriving DecidableEq, Repr

inductive Estimate where
  /-- Slot of the bucket that holds the requested rank. -/
  | slot (slot : UInt64)
  /-- Position inside the winning bucket. -/
  | interpolated (position : Float)
  deriving DecidableEq

def Estimate.value : Estimate → Float
  | slot s => s.toFloat
  | interpolated x => x

inductive QueryError where
  | emptyHistogram
  | percentileOutOfRange (percentile : Float)
  | zeroTotal
  deriving DecidableEq

def QueryError.message : QueryError → String
  | emptyHistogram => "histogram is empty"
  | percentileOutOfRange p => "percentile " ++ Decimal.plain p ++ " is outside [0, 100]"
  | zeroTotal => "histogram has no observations"

def Histogram.LengthMismatch.message (e : Histogram.LengthMismatch) : String :=
  Decimal.digits e.bins ++ " bins but " ++ Decimal.digits e.counts ++ " counts"

/-- Where the walk stops: a bucket with the running totals before it and including it. -/
structure Stop where
  index : Nat
  before : Counter
  through : Counter
  deriving DecidableEq, Repr

/-- Walks on behind `index` buckets that add up to `sum`, up to where the counts `reached` what is
asked for. -/
def Stop.search? (reached : Counter → Bool) (index : Nat) (sum : Counter) :
    List Bucket → Option Stop
  | [] => none
  | b :: rest =>
    let next := Counter.add sum b.count
    if reached next then some ⟨index,sum,next⟩ else search? reached (index+1) next rest

namespace Histogram

def firstStop? (h : Histogram) (reached : Counter → Bool) : Option Stop :=
  Stop.search? reached 0 0 h.buckets

/-- The stop at the last bucket, for a walk that rounding has kept from stopping earlier. -/
def lastStop (h : Histogram) : Stop :=
  let index := h.buckets.length-1
  let count := (h.buckets[index]?.map Bucket.count).getD 0
  ⟨index,Counter.clamp (h.total.toNat-count.toNat),h.total⟩

def stop (h : Histogram) (reached : Counter → Bool) : Stop :=
  (h.firstStop? reached).getD h.lastStop

def slotAt (h : Histogram) (index : Nat) : UInt64 := (h.buckets[index]?.map Bucket.slot).getD 0

/-- How many observations lie at or below the percentile, rounded down. -/
def rank (h : Histogram) (percentile : Float) : Counter :=
  (h.total.toFloat*percentile/100).toUInt64

/-- Position of the bucket that holds the rank; rank zero asks for the smallest value. -/
def floorIndex (h : Histogram) (percentile : Float) : Nat :=
  let rank := h.rank percentile
  if rank=0 then 0 else (h.stop (rank≤·)).index

/-- Share of the observations that the percentile stands for, without rounding to a rank. -/
def threshold (h : Histogram) (percentile : Float) : Float := h.total.toFloat*(percentile/100)

def crossing (h : Histogram) (percentile : Float) : Stop :=
  let threshold := h.threshold percentile
  h.stop (threshold≤·.toFloat)

/-- Upper end of the bucket at a position: the next slot, or twice its own for the last one,
since slots that stand for powers of two double in width. -/
def endOf (h : Histogram) (index : Nat) : Float :=
  match h.buckets[index+1]? with
  | some next => next.slot.toFloat
  | none => (h.slotAt index).toFloat*2

/-- How far into the winning bucket the threshold lies; zero in a bucket that adds nothing. -/
def fractionInto (s : Stop) (threshold : Float) : Float :=
  if s.through=s.before then 0
  else (threshold-s.before.toFloat)/(s.through-s.before).toFloat

def interpolate (h : Histogram) (percentile : Float) : Float :=
  let s := h.crossing percentile
  let start := (h.slotAt s.index).toFloat
  start+fractionInto s (h.threshold percentile)*(h.endOf s.index-start)

/-- Is `percentile` a number from 0 to 100? NaN is not. -/
def accepts (percentile : Float) : Bool := 0≤percentile && percentile≤100

def estimate (h : Histogram) (mode : Mode) (percentile : Float) : Except QueryError Estimate :=
  if h.isEmpty then .error .emptyHistogram
  else if !accepts percentile then .error (.percentileOutOfRange percentile)
  else if h.total=0 then .error .zeroTotal
  else .ok <| match mode with
    | .bucketFloor => .slot (h.slotAt (h.floorIndex percentile))
    | .interpolated => .interpolated (h.interpolate percentile)

end Histogram
end SchedLatency
