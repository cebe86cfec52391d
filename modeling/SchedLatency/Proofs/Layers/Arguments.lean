import SchedLatency.Proofs.Layers.Keys

namespace SchedLatency

namespace Settings

def Key.argument : Key → Argument
  | objectPath => .object
  | mapName => .map
  | keyLayout => .keyLayout
  | duplicatePolicy => .duplicates
  | interval => .interval
  | iterations => .iterations
  | pid => .pid
  | rangeMode => .raw
  | histogram => .noHistogram
  | percentiles => .percentiles
  | p99 => .p99
  | timestamp => .timestamp

theorem Key.argument_ne {k other : Key} (h : k≠other) : k.argument≠other.argument := by
  cases k <;> cases other <;> first | exact absurd rfl h | nofun

end Settings

namespace CommandLine.Reader

open Settings (Key bind_eq_ok)

theorem store_given {line line' : CommandLine} {a : Argument} {value : String} {k : Key}
    (h : store line a value=.ok line') (hk : k.argument≠a) : k.given line'=k.given line := by
  cases a with
  | verbose | map | raw | noHistogram | p99 | timestamp =>
    obtain rfl := Except.ok.inj h
    cases k <;> first | rfl | exact absurd rfl hk
  | config | object | keyLayout | duplicates | interval | iterations | pid | percentiles =>
    simp only [store,bind_eq_ok] at h
    obtain ⟨_,-,h⟩ := h
    obtain rfl := Except.ok.inj h
    cases k <;> first | rfl | exact absurd rfl hk

theorem store_object {line line' : CommandLine} {a : Argument} {value : String}
    (h : store line a value=.ok line') (ha : a≠.object) : line'.object=line.object :=
  store_given (k := .objectPath) h ha.symm

theorem foldlM_store_object {a : Argument} (ha : a≠.object) {values : List String}
    {line line' : CommandLine}
    (h : values.foldlM (fun line value => store line a value) line=.ok line') :
    line'.object=line.object := by
  induction values generalizing line with
  | nil =>
    obtain rfl := Except.ok.inj h
    rfl
  | cons value values ih =>
    rw [List.foldlM_cons,bind_eq_ok] at h
    obtain ⟨next,hnext,hrest⟩ := h
    rw [ih hrest,store_object hnext ha]

theorem take_ok {r r' : Reader} {a : Argument} {value? : Option String}
    (h : take r a value?=.ok r') : ∃ values line,
      (a.takesValue → ∃ value,values=split a value) ∧
      values.foldlM (fun line value => store line a value) r.line=.ok line ∧
      r'={r with line := line,given := a :: r.given} := by
  have taken (values : List String)
      (h : (if a∈r.given && !a.repeats then throw .argumentConflict else do
        let line ← values.foldlM (fun line value => store line a value) r.line
        return {r with line := line,given := a :: r.given} : Except Error Reader)=.ok r') :
      ∃ line,values.foldlM (fun line value => store line a value) r.line=.ok line ∧
        r'={r with line := line,given := a :: r.given} := by
    split at h
    · cases h
    · obtain ⟨line,hline,h⟩ := bind_eq_ok.mp h
      exact ⟨line,hline,(Except.ok.inj h).symm⟩
  cases value? with
  | some value =>
    obtain ⟨line,hline,hr⟩ := taken (split a value) h
    exact ⟨_,line,fun _ => ⟨value,rfl⟩,hline,hr⟩
  | none =>
    cases hvalue : a.takesValue with
    | true =>
      simp only [take,hvalue,if_true] at h
      cases h
    | false =>
      simp only [take,hvalue,Bool.false_eq_true,if_false] at h
      obtain ⟨line,hline,hr⟩ := taken [""] h
      exact ⟨_,line,nofun,hline,hr⟩

/-- Whether the object counts as given can be seen from its path. -/
def ObjectKnown (line : CommandLine) (given : List Argument) : Prop :=
  .object∈given ↔ line.object.isSome

theorem take_objectKnown {r r' : Reader} {a : Argument} {value? : Option String}
    (h : take r a value?=.ok r') (hr : ObjectKnown r.line r.given) :
    ObjectKnown r'.line r'.given := by
  obtain ⟨values,line,hvalues,hline,rfl⟩ := take_ok h
  by_cases ha : a=.object
  · subst ha
    obtain ⟨value,rfl⟩ := hvalues rfl
    obtain ⟨next,hnext,hrest⟩ := bind_eq_ok.mp hline
    obtain rfl := Except.ok.inj hrest
    obtain ⟨path,-,hpath⟩ := bind_eq_ok.mp hnext
    obtain rfl := Except.ok.inj hpath
    exact iff_of_true List.mem_cons_self rfl
  · unfold ObjectKnown at hr ⊢
    rw [foldlM_store_object ha hline,List.mem_cons,or_iff_right (Ne.symm ha)]
    exact hr

section Keeps

variable {P : CommandLine → List Argument → Prop}
  (step : ∀ {r r' : Reader} {a : Argument} {value? : Option String},
    take r a value?=.ok r' → P r.line r.given → P r'.line r'.given)

include step

theorem settle_keeps {r r' : Reader} (h : r.settle=.ok r') (hr : P r.line r.given) :
    P r'.line r'.given := by
  unfold settle at h
  split at h
  · obtain rfl := Except.ok.inj h
    exact hr
  · exact step h hr

theorem meet_keeps {r r' : Reader} {a : Argument} {attached? : Option String}
    (h : r.meet a attached?=.ok r') (hr : P r.line r.given) : P r'.line r'.given := by
  obtain ⟨next,hnext,h⟩ := bind_eq_ok.mp h
  have hsettled := settle_keeps step hnext hr
  split at h
  · exact step h hsettled
  · split at h
    · obtain rfl := Except.ok.inj h
      exact hsettled
    · exact step h hsettled

theorem meetShort_keeps {cs : List Char} {r r' : Reader} (h : r.meetShort cs=.ok r')
    (hr : P r.line r.given) : P r'.line r'.given := by
  induction cs generalizing r with
  | nil =>
    obtain rfl := Except.ok.inj h
    exact hr
  | cons c cs ih =>
    unfold meetShort at h
    split at h
    · cases h
    · split at h
      · split at h <;> exact meet_keeps step h hr
      · obtain ⟨next,hnext,h⟩ := bind_eq_ok.mp h
        exact ih h (meet_keeps step hnext hr)

theorem read_keeps {r r' : Reader} {word : String} (h : r.read word=.ok r')
    (hr : P r.line r.given) : P r'.line r'.given := by
  unfold read at h
  split at h
  · cases h
  · split at h
    · obtain rfl := Except.ok.inj h
      exact hr
    · simp only [meetLong] at h
      split at h
      · cases h
      · split at h
        · cases h
        · exact meet_keeps step h hr
    · exact meetShort_keeps step h hr
    · unfold meetWord at h
      split at h
      · obtain rfl := Except.ok.inj h
        exact hr
      · cases h

theorem foldlM_read_keeps {words : List String} {r r' : Reader}
    (h : words.foldlM read r=.ok r') (hr : P r.line r.given) : P r'.line r'.given := by
  induction words generalizing r with
  | nil =>
    obtain rfl := Except.ok.inj h
    exact hr
  | cons word words ih =>
    rw [List.foldlM_cons,bind_eq_ok] at h
    obtain ⟨next,hnext,hrest⟩ := h
    exact ih hrest (read_keeps step hnext hr)

end Keeps

end CommandLine.Reader

namespace CommandLine

open Settings (bind_eq_ok)

/-- The variable that may name the object counts exactly if no word names it. -/
theorem parse_object {words : List String} {objectVariable : Option String} {c : CommandLine}
    (h : parse words objectVariable=.ok c) : ∃ spoken,parse words none=.ok spoken ∧
      c={spoken with object := spoken.object.or objectVariable} := by
  obtain ⟨r,hr,h⟩ := bind_eq_ok.mp h
  obtain ⟨r',hr',h⟩ := bind_eq_ok.mp h
  have known : Reader.ObjectKnown r'.line r'.given := by
    apply Reader.settle_keeps Reader.take_objectKnown hr'
    apply Reader.foldlM_read_keeps Reader.take_objectKnown hr
    exact iff_of_false (List.not_mem_nil) nofun
  have spoken : parse words none=.ok r'.line :=
    bind_eq_ok.mpr ⟨r,hr,bind_eq_ok.mpr ⟨r',hr',rfl⟩⟩
  refine ⟨r'.line,spoken,?_⟩
  cases objectVariable with
  | none =>
    obtain rfl := Except.ok.inj h
    rw [Option.or_none]
  | some path =>
    simp only at h
    split at h
    · rename_i hgiven
      obtain ⟨own,hown⟩ := Option.isSome_iff_exists.mp (known.mp hgiven)
      obtain rfl := Except.ok.inj h
      rw [hown,Option.some_or,←hown]
    · rename_i hgiven
      have hown := Option.not_isSome_iff_eq_none.mp (mt known.mpr hgiven)
      obtain ⟨value,hvalue,h⟩ := bind_eq_ok.mp h
      obtain rfl := Except.ok.inj h
      unfold Reader.nonEmpty at hvalue
      split at hvalue
      · cases hvalue
      · obtain rfl := Except.ok.inj hvalue
        rw [hown,Option.none_or]

end CommandLine
end SchedLatency
