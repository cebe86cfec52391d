import SchedLatency.Source

namespace SchedLatency

inductive KeyLayout where
  /-- An entity, padding and a 64-bit slot, counted by 64-bit words. -/
  | wide
  /-- An entity and a 32-bit slot, counted by 32-bit words. -/
  | compact
  deriving DecidableEq, Repr

namespace KeyLayout

def keySize : KeyLayout → Nat
  | wide => 16
  | compact => 8

def valueSize : KeyLayout → Nat
  | wide => 8
  | compact => 4

def littleEndian : List UInt8 → Nat
  | [] => 0
  | b :: rest => b.toNat+256*littleEndian rest

def field (bytes : List UInt8) (offset size : Nat) : Nat :=
  littleEndian ((bytes.drop offset).take size)

def decode (layout : KeyLayout) (key value : List UInt8) : Sample :=
  let entity := UInt32.ofNat (field key 0 4)
  match layout with
  | wide => ⟨entity,UInt64.ofNat (field key 8 8),UInt64.ofNat (field value 0 8)⟩
  | compact => ⟨entity,UInt64.ofNat (field key 4 4),UInt64.ofNat (field value 0 4)⟩

/-- The padding of a wide key does not matter. -/
theorem decode_padding (entity pad pad' slot value : List UInt8)
    (he : entity.length=4) (hp : pad.length=4) (hp' : pad'.length=4) :
    decode .wide (entity++(pad++slot)) value=decode .wide (entity++(pad'++slot)) value := by
  have h (p : List UInt8) (hl : p.length=4) : (entity++(p++slot)).drop 8=slot := by
    rw [List.drop_append,he,List.drop_append,hl,List.drop_of_length_le (by omega),
      List.drop_of_length_le (by omega)]
    simp
  simp [decode,field,h pad hp,h pad' hp',he]

end KeyLayout
end SchedLatency
