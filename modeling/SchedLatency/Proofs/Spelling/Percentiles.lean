import SchedLatency.Proofs.Spelling.Loading
import SchedLatency.Proofs.Spelling.Numerals
import SchedLatency.Proofs.Spelling.Texts

namespace SchedLatency.Settings

open Config
open Config.Environment (listKey)

/-- A text without commas that is read as a finite number once the blanks around it are cut off. -/
structure Numeral (d : String) (x : Float) : Prop where
  free : ','∉d.toList
  reads : Decimal.double? (Text.trim d)=some x
  finite : x.isFinite

/-- The number that a node is: a word is converted, and any other number is read. -/
def number? : Yaml.Node → Option Float
  | .integer n => if Decimal.fitsSigned n then some (Double.ofWord n) else none
  | .real text => Decimal.double? text
  | _ => none

section Scalars

variable {x : Float} {origin : Option String}

end Scalars

section Files

theorem mem_values {origin s : String} {nodes : List Yaml.Node} {items : List Value}
    (h : File.values origin nodes=.ok items) (hmem : .text s∈nodes) :
    .scalar (some origin) (.text s)∈items := by
  induction nodes generalizing items with
  | nil => cases hmem
  | cons node nodes ih =>
    rw [File.values] at h
    obtain ⟨v,hv,h⟩ := bind_eq_ok.mp h
    obtain ⟨rest,hrest,h⟩ := bind_eq_ok.mp h
    obtain rfl := Except.ok.inj h
    rcases List.mem_cons.mp hmem with rfl | hmem
    · rw [File.value] at hv
      obtain rfl := Except.ok.inj hv
      exact List.mem_cons_self
    · exact List.mem_cons_of_mem _ (ih hrest hmem)

end Files

section Variables

open Environment (value)

end Variables

end SchedLatency.Settings
