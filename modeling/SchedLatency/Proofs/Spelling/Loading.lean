import Mathlib.Data.List.Forall2
import Mathlib.Tactic.Choose
import SchedLatency.Proofs.Layers.Frame
import SchedLatency.Proofs.Layers.Precedence

namespace SchedLatency.Settings

open Config
open Config.Environment (listKey)
open Config.Value (emptyTable)

/-- Two sources make up a table in which this value stands for the percentiles. -/
def Held (v : Value) (file environment : Layer) (table : Value) : Prop :=
  layers file environment=some table ∧ table.at? Key.percentiles.path=some v

section Held

variable {v table : Value} {file environment : Layer}

theorem Held.read (held : Held v file environment table) :
    Key.percentiles.read table=Decoder.nullable Decoder.percentiles Key.percentiles.label v := by
  have hv := held.2
  have hopen : table.OpenAt "output" := by
    intro out hout
    change table.at? ["output","percentiles"]=some v at hv
    rw [Value.at?,hout,Option.bind_some,Value.at?_single] at hv
    cases out with
    | table o es => rfl
    | scalar o s => cases hv
    | list o items => cases hv
  rw [read_eq_decode fun _ => hopen,hv]
  rfl

end Held

end SchedLatency.Settings
