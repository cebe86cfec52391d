import SchedLatency.Association
import SchedLatency.Source

namespace SchedLatency

/-- At most one value per entity; `entries` lists them by ascending entity. -/
structure EntityMap (α : Type) where
  entries : List (EntityId×α)
  ascending : (entries.map Prod.fst).Pairwise (·<·)

namespace EntityMap

variable {α β : Type}

instance [DecidableEq α] : DecidableEq (EntityMap α) := fun a b =>
  if h : a.entries=b.entries then
    isTrue (by cases a; cases b; simp only at h; subst h; rfl)
  else isFalse fun e => h (congrArg entries e)

theorem ext_entries {a b : EntityMap α} (h : a.entries=b.entries) : a=b := by
  cases a; cases b; simp only at h; subst h; rfl

def empty : EntityMap α := ⟨[],List.Pairwise.nil⟩

def get? (m : EntityMap α) (id : EntityId) : Option α := m.entries.lookup id

def ids (m : EntityMap α) : List EntityId := m.entries.map Prod.fst

def alterList (id : EntityId) (f : Option α → α) : List (EntityId×α) → List (EntityId×α)
  | [] => [(id,f none)]
  | (k,v) :: rest =>
    if id<k then (id,f none) :: (k,v) :: rest
    else if id=k then (k,f (some v)) :: rest
    else (k,v) :: alterList id f rest

theorem mem_keys_alterList {id : EntityId} {f : Option α → α} {k : EntityId} :
    ∀ {l : List (EntityId×α)}, k∈(alterList id f l).map Prod.fst → k=id ∨ k∈l.map Prod.fst
  | [],h => by
    simp only [alterList,List.map_cons,List.map_nil,List.mem_singleton] at h
    exact .inl h
  | (k',v) :: rest,h => by
    unfold alterList at h
    split at h
    · simpa using h
    · split at h
      · exact .inr (by simpa using h)
      · simp only [List.map_cons,List.mem_cons] at h ⊢
        rcases h with h | h
        · exact .inr (.inl h)
        · rcases mem_keys_alterList h with h' | h'
          · exact .inl h'
          · exact .inr (.inr h')

theorem alterList_ascending (id : EntityId) (f : Option α → α) :
    ∀ l : List (EntityId×α),(l.map Prod.fst).Pairwise (·<·) →
      ((alterList id f l).map Prod.fst).Pairwise (·<·)
  | [],_ => by simp [alterList]
  | (k,v) :: rest,h => by
    have hrest := (List.pairwise_cons.mp h).2
    have hhead := (List.pairwise_cons.mp h).1
    unfold alterList
    split
    · rename_i hlt
      refine List.pairwise_cons.mpr ⟨?_,h⟩
      intro k' hk'
      simp only [List.map_cons,List.mem_cons] at hk'
      rcases hk' with rfl | hk'
      · exact hlt
      · exact UInt32.lt_trans hlt (hhead k' hk')
    · rename_i hge
      split
      · exact List.pairwise_cons.mpr ⟨hhead,hrest⟩
      · rename_i hne
        refine List.pairwise_cons.mpr ⟨?_,alterList_ascending id f rest hrest⟩
        intro k' hk'
        rcases mem_keys_alterList hk' with rfl | hk'
        · simp only [UInt32.lt_iff_toNat_lt] at hge ⊢
          have : k'.toNat≠k.toNat := fun e => hne (UInt32.toNat_inj.mp e)
          omega
        · exact hhead k' hk'

def alter (m : EntityMap α) (id : EntityId) (f : Option α → α) : EntityMap α :=
  ⟨alterList id f m.entries,alterList_ascending id f _ m.ascending⟩

def mapValues (m : EntityMap α) (f : α → β) : EntityMap β :=
  ⟨m.entries.map fun e => (e.1,f e.2),by
    rw [List.map_map]
    exact m.ascending⟩

def filterIds (m : EntityMap α) (p : EntityId → Bool) : EntityMap α :=
  ⟨m.entries.filter fun e => p e.1,by
    have h := m.ascending.filter p
    rw [List.filter_map] at h
    exact h⟩

theorem lookup_cons_eq (k k' : EntityId) (v : α) (l : List (EntityId×α)) :
    ((k',v) :: l).lookup k=if k=k' then some v else l.lookup k := by
  rw [List.lookup_cons]
  by_cases h : k=k'
  · simp [h]
  · simp [h,beq_eq_false_iff_ne.mpr h]

theorem lookup_eq_none_of_lt {k k' : EntityId} {l : List (EntityId×α)}
    (h : ∀ j∈l.map Prod.fst,k'<j) (hk : k<k' ∨ k=k') : l.lookup k=none := by
  rw [List.lookup_eq_none_iff]
  intro e he
  have hlt := h e.1 (List.mem_map_of_mem he)
  simp only [UInt32.lt_iff_toNat_lt] at hlt hk
  refine bne_iff_ne.mpr ?_
  rintro rfl
  rcases hk with hk | rfl <;> omega

theorem lookup_alterList (id : EntityId) (f : Option α → α) (k : EntityId) :
    ∀ l : List (EntityId×α),(l.map Prod.fst).Pairwise (·<·) →
      (alterList id f l).lookup k=if k=id then some (f (l.lookup id)) else l.lookup k
  | [],_ => by simp [alterList,lookup_cons_eq]
  | (k',v) :: rest,h => by
    have hrest := (List.pairwise_cons.mp h).2
    have hhead := (List.pairwise_cons.mp h).1
    unfold alterList
    split
    · rename_i hlt
      have hne : id≠k' := fun e => UInt32.lt_irrefl _ (e ▸ hlt)
      simp [lookup_cons_eq,lookup_eq_none_of_lt hhead (.inl hlt),hne]
    · split
      · rename_i heq
        subst heq
        by_cases hk : k=id <;> simp [lookup_cons_eq,hk]
      · rename_i hne
        simp only [lookup_cons_eq,lookup_alterList id f k rest hrest,hne,if_false]
        by_cases hk : k=id
        · subst hk
          simp [hne]
        · simp [hk]

theorem get?_alter (m : EntityMap α) (id : EntityId) (f : Option α → α) (k : EntityId) :
    (m.alter id f).get? k=if k=id then some (f (m.get? id)) else m.get? k :=
  lookup_alterList id f k m.entries m.ascending

theorem nodup_ids (m : EntityMap α) : m.ids.Nodup := by
  apply List.Pairwise.imp _ m.ascending
  intro a b hlt heq
  subst heq
  exact UInt32.lt_irrefl _ hlt

theorem get?_eq_some_iff_mem (m : EntityMap α) (id : EntityId) (v : α) :
    m.get? id=some v ↔ (id,v)∈m.entries :=
  Association.lookup_eq_some_iff_mem m.nodup_ids

theorem mem_ids_iff (m : EntityMap α) (id : EntityId) : id∈m.ids ↔ ∃ v,m.get? id=some v := by
  simp [ids,get?_eq_some_iff_mem]

theorem ext_get? {a b : EntityMap α} (h : ∀ id,a.get? id=b.get? id) : a=b := by
  have ascending (m : EntityMap α) : m.entries.Pairwise fun e e' => e.1<e'.1 :=
    List.pairwise_map.mp m.ascending
  have nodup (m : EntityMap α) : m.entries.Nodup := by
    apply List.Pairwise.imp _ (ascending m)
    intro e e' hlt heq
    subst heq
    exact UInt32.lt_irrefl _ hlt
  have mem (e : EntityId×α) : e∈a.entries ↔ e∈b.entries := by
    rw [←get?_eq_some_iff_mem,←get?_eq_some_iff_mem,h]
  apply ext_entries
  apply List.Perm.eq_of_pairwise _ (ascending a) (ascending b)
    ((List.perm_ext_iff_of_nodup (nodup a) (nodup b)).mpr mem)
  intro e e' _ _ hlt hgt
  exact absurd hlt (UInt32.lt_asymm hgt)

theorem get?_mapValues (m : EntityMap α) (f : α → β) (id : EntityId) :
    (m.mapValues f).get? id=(m.get? id).map f := by
  change (m.entries.map fun e => (e.1,f e.2)).lookup id=(m.entries.lookup id).map f
  induction m.entries with
  | nil => rfl
  | cons e es ih =>
    rw [List.map_cons,lookup_cons_eq,ih,lookup_cons_eq]
    split <;> rfl

theorem ids_mapValues (m : EntityMap α) (f : α → β) : (m.mapValues f).ids=m.ids := by
  simp [ids,mapValues,Function.comp_def]

theorem get?_filterIds (m : EntityMap α) (p : EntityId → Bool) (id : EntityId) :
    (m.filterIds p).get? id=if p id then m.get? id else none := by
  change (m.entries.filter fun e => p e.1).lookup id=if p id then m.entries.lookup id else none
  induction m.entries with
  | nil => simp
  | cons e es ih =>
    rw [List.filter_cons,lookup_cons_eq]
    by_cases h : id=e.1
    · subst h
      split
      · rw [lookup_cons_eq,if_pos rfl,if_pos rfl]
      · rename_i hp
        rw [ih,if_neg hp]
    · rw [if_neg h,←ih]
      split
      · rw [lookup_cons_eq,if_neg h]
      · rfl

end EntityMap
end SchedLatency
