namespace SchedLatency.Association

variable {κ α : Type} [BEq κ]

/-- Replaces the value of a key, which is given to `f`, or adds one behind all others. -/
def alter (key : κ) (f : Option α → α) : List (κ×α) → List (κ×α)
  | [] => [(key,f none)]
  | (k,v) :: rest => if k == key then (k,f (some v)) :: rest else (k,v) :: alter key f rest

def set (key : κ) (new : α) (es : List (κ×α)) : List (κ×α) := alter key (fun _ => new) es

theorem lookup_alter [LawfulBEq κ] (key : κ) (f : Option α → α) (k : κ) :
    ∀ es : List (κ×α),
      (alter key f es).lookup k=if k == key then some (f (es.lookup key)) else es.lookup k
  | [] => by
    cases h : k == key <;> simp [alter,List.lookup_cons,h]
  | (k',v) :: rest => by
    unfold alter
    split
    · rename_i hk
      have hk := eq_of_beq hk
      subst hk
      cases h : k == k' <;> simp [List.lookup_cons,h]
    · rename_i hk
      have hk' : (key == k')=false := by rw [BEq.comm]; simpa using hk
      rw [List.lookup_cons,List.lookup_cons,lookup_alter key f k rest,List.lookup_cons,hk']
      cases h : k == k'
      · rfl
      · have h := eq_of_beq h
        subst h
        simp [hk]

theorem lookup_set [LawfulBEq κ] (key : κ) (new : α) (k : κ) (es : List (κ×α)) :
    (set key new es).lookup k=if k == key then some new else es.lookup k :=
  lookup_alter key _ k es

/-- A key that is there keeps its place, and a new one comes last. -/
theorem keys_alter [LawfulBEq κ] (key : κ) (f : Option α → α) :
    ∀ es : List (κ×α),(alter key f es).map Prod.fst=
      if (es.map Prod.fst).contains key then es.map Prod.fst else es.map Prod.fst++[key]
  | [] => rfl
  | (k,v) :: rest => by
    unfold alter
    cases h : k == key
    · have h' : (key == k)=false := by rw [BEq.comm]; exact h
      simp only [Bool.false_eq_true,if_false,List.map_cons,keys_alter key f rest,
        List.contains_cons,h',Bool.false_or]
      split <;> rfl
    · have h := eq_of_beq h
      subst h
      simp

theorem nodup_keys_alter [LawfulBEq κ] (key : κ) (f : Option α → α) {es : List (κ×α)}
    (h : (es.map Prod.fst).Nodup) : ((alter key f es).map Prod.fst).Nodup := by
  rw [keys_alter]
  split
  · exact h
  · rename_i hk
    rw [List.contains_iff_mem] at hk
    apply List.nodup_append.mpr
    refine ⟨h,by simp,?_⟩
    intro a ha b hb
    rw [List.mem_singleton] at hb
    subst hb
    intro hab
    exact hk (hab ▸ ha)

theorem mem_of_mem_set [LawfulBEq κ] {key : κ} {new : α} {es : List (κ×α)} {e : κ×α}
    (h : e∈set key new es) : e=(key,new) ∨ e∈es := by
  induction es with
  | nil => exact .inl (List.mem_singleton.mp h)
  | cons e' es ih =>
    obtain ⟨k,v⟩ := e'
    change e∈(if k == key then (k,new) :: es else (k,v) :: set key new es) at h
    split at h
    · rename_i hk
      rw [eq_of_beq hk] at h
      exact (List.mem_cons.mp h).imp_right (List.mem_cons_of_mem _)
    · rcases List.mem_cons.mp h with rfl | h
      · exact .inr List.mem_cons_self
      · exact (ih h).imp_right (List.mem_cons_of_mem _)

theorem lookup_eq_some_iff_mem [LawfulBEq κ] {key : κ} {v : α} {es : List (κ×α)}
    (h : (es.map Prod.fst).Nodup) : es.lookup key=some v ↔ (key,v)∈es := by
  induction es with
  | nil => simp
  | cons e es ih =>
    obtain ⟨hfst,hrest⟩ := List.nodup_cons.mp h
    rw [List.lookup_cons]
    cases hk : key == e.1 with
    | true =>
      have hk := eq_of_beq hk
      subst hk
      simp only [Option.some.injEq,List.mem_cons]
      constructor
      · rintro rfl
        exact .inl rfl
      · rintro (he | he)
        · rw [←he]
        · exact absurd (List.mem_map_of_mem he) hfst
    | false =>
      have hne : key≠e.1 := beq_eq_false_iff_ne.mp hk
      simp only [ih hrest,List.mem_cons]
      constructor
      · exact .inr
      · rintro (he | he)
        · exact absurd (congrArg Prod.fst he) hne
        · exact he

end SchedLatency.Association
