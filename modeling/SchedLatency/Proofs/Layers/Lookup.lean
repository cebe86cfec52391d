import SchedLatency.Config.KeyPath

namespace SchedLatency.Config

/-- The steps that a source's key stands for; a text that is no path is one name. -/
def stepsOf (key : String) : List Step :=
  match KeyPath.parse? key with
  | some path => .key path.head :: path.steps
  | none => [.key key]

namespace Step

def isForward : Step → Bool
  | key _ => true
  | index i => 0 ≤ i

/-- Do the steps lead to the end of a path of names? -/
def leads : List Step → List String → Bool
  | [],[] => true
  | key name :: steps,n :: path => Text.lower name==n && leads steps path
  | _,_ => false

/-- Do the steps turn to another name somewhere on the path? -/
def parts : List Step → List String → Bool
  | key name :: steps,n :: path => !(Text.lower name==n) || parts steps path
  | _,_ => false

theorem cons_of_leads {steps : List Step} {n : String} {path : List String}
    (h : leads steps (n :: path)) :
    ∃ name rest,steps=key name :: rest ∧ Text.lower name=n ∧ leads rest path := by
  match steps with
  | [] => cases h
  | index i :: rest => cases h
  | key name :: rest =>
    obtain ⟨hname,hrest⟩ := (Bool.and_eq_true _ _).mp h
    exact ⟨name,rest,rfl,eq_of_beq hname,hrest⟩

theorem cons_of_parts {steps : List Step} {path : List String} (h : parts steps path) :
    ∃ name rest n path',steps=key name :: rest ∧ path=n :: path' ∧
      (Text.lower name≠n ∨ parts rest path') := by
  match steps,path with
  | [],_ => cases h
  | index i :: rest,_ => cases h
  | key name :: rest,[] => cases h
  | key name :: rest,n :: path' =>
    refine ⟨name,rest,n,path',rfl,rfl,?_⟩
    simpa [parts] using h

end Step

namespace Value

open Step

def at? (v : Value) : List String → Option Value
  | [] => some v
  | n :: path => (v.get? n).bind fun inner => inner.at? path

def isTable : Value → Bool
  | table _ _ => true
  | _ => false

def isNull : Value → Bool
  | scalar _ .null => true
  | _ => false

theorem at?_single (v : Value) (n : String) : v.at? [n]=v.get? n := by
  cases h : v.get? n <;> simp [at?,h]

theorem get?_asTable (v : Value) (n : String) : v.asTable.get? n=v.get? n := by
  cases v <;> rfl

theorem withEntry_isTable (v : Value) (n : String) (new : Value) : (v.withEntry n new).isTable := by
  cases v <;> rfl

theorem put_eq (name : String) (root new : Value) : ∃ inner,
    put name root new=root.asTable.withEntry (Text.lower name) inner ∧
      (new.isTable=false → inner=new) := by
  cases new with
  | scalar o s => exact ⟨_,rfl,fun _ => rfl⟩
  | list o items => exact ⟨_,rfl,fun _ => rfl⟩
  | table o es => exact ⟨_,rfl,nofun⟩

theorem assign_key {new root r : Value} {name : String} {rest : List Step}
    (h : assign new (key name :: rest) root=some r) : ∃ inner,
    r=root.asTable.withEntry (Text.lower name) inner ∧
      (rest≠[] → assign new rest ((root.get? (Text.lower name)).getD unset)=some inner) ∧
      (rest=[] → new.isTable=false → inner=new) := by
  cases rest with
  | nil =>
    obtain ⟨inner,hput,hplain⟩ := put_eq name root new
    refine ⟨inner,?_,absurd rfl,fun _ => hplain⟩
    rw [←hput]
    exact (Option.some.inj h).symm
  | cons step rest =>
    rw [assign] at h
    · obtain ⟨inner,hinner,hr⟩ := Option.bind_eq_some_iff.mp h
      rw [get?_asTable] at hinner
      exact ⟨inner,(Option.some.inj hr).symm,fun _ => hinner,nofun⟩
    · nofun

theorem at?_withEntry (v : Value) (n : String) (inner : Value) (m : String) (path : List String) :
    (v.asTable.withEntry n inner).at? (m :: path)=
      if m==n then inner.at? path else v.at? (m :: path) := by
  rw [at?,get?_withEntry,get?_asTable]
  split <;> rfl

theorem at?_assign_of_parts {new root r : Value} {steps : List Step} {path : List String}
    (h : parts steps path) (ha : assign new steps root=some r) : r.at? path=root.at? path := by
  induction steps generalizing root r path with
  | nil => cases h
  | cons step steps ih =>
    obtain ⟨name,rest,n,path',hsteps,rfl,hparts⟩ := cons_of_parts h
    obtain ⟨rfl,rfl⟩ := List.cons.inj hsteps
    obtain ⟨inner,rfl,hinner,-⟩ := assign_key ha
    rw [at?_withEntry]
    split
    · rename_i hn
      have hn := eq_of_beq hn
      have hrest : parts steps path' := hparts.resolve_left fun hne => hne hn.symm
      have hne : steps≠[] := by
        rintro rfl
        cases hrest
      rw [ih hrest (hinner hne),hn,at?]
      -- Nothing stands below a value that has not been set, and the path is not at its end here.
      cases hget : root.get? (Text.lower name) with
      | some v => rfl
      | none =>
        obtain ⟨-,-,m,path'',-,rfl,-⟩ := cons_of_parts hrest
        rfl
    · rfl

theorem at?_assign_of_leads {new root r : Value} {steps : List Step} {path : List String}
    (h : leads steps path) (hnew : new.isTable=false) (ha : assign new steps root=some r) :
    r.at? path=some new := by
  induction steps generalizing root r path with
  | nil =>
    cases path with
    | nil =>
      obtain rfl := Option.some.inj ha
      rfl
    | cons n path => cases h
  | cons step steps ih =>
    cases path with
    | nil => cases step <;> cases h
    | cons n path =>
      obtain ⟨name,rest,hsteps,rfl,hleads⟩ := cons_of_leads h
      obtain ⟨rfl,rfl⟩ := List.cons.inj hsteps
      obtain ⟨inner,rfl,hinner,hplain⟩ := assign_key ha
      rw [at?_withEntry,beq_self_eq_true,if_pos rfl]
      cases steps with
      | nil =>
        cases path with
        | nil => rw [hplain rfl hnew,at?]
        | cons m path => cases hleads
      | cons step steps => exact ih hleads (hinner (List.cons_ne_nil _ _))

theorem assign_index {new root r : Value} {i : Int} {rest : List Step}
    (h : assign new (index i :: rest) root=some r) : ∃ n inner,
    position? i root.asList.2.length=some n ∧
      assign new rest (((growTo root.asList.2 n)[n]?).getD unset)=some inner ∧
      r=.list root.asList.1 ((growTo root.asList.2 n).set n inner) := by
  rw [assign] at h
  obtain ⟨n,hn,h⟩ := Option.bind_eq_some_iff.mp h
  obtain ⟨inner,hinner,h⟩ := Option.bind_eq_some_iff.mp h
  exact ⟨n,inner,hn,hinner,(Option.some.inj h).symm⟩

/-- Without positions counted from the end, an assignment that succeeds in one value succeeds in
any other. -/
theorem assign_isSome {new w w' : Value} {steps : List Step} (h : steps.all isForward)
    (hw : assign new steps w=some w') (v : Value) : ∃ v',assign new steps v=some v' := by
  induction steps generalizing v w w' with
  | nil => exact ⟨new,rfl⟩
  | cons step steps ih =>
    rw [List.all_cons,Bool.and_eq_true] at h
    match step with
    | index i =>
      obtain ⟨n,inner,hn,hinner,-⟩ := assign_index hw
      have hi : ¬i<0 := by simpa [isForward] using h.1
      have hplace : position? i v.asList.2.length=some n := by
        rw [←hn,position?,position?,if_neg hi,if_neg hi]
      obtain ⟨inner',hinner'⟩ := ih h.2 hinner (((growTo v.asList.2 n)[n]?).getD unset)
      refine ⟨.list v.asList.1 ((growTo v.asList.2 n).set n inner'),?_⟩
      simp only [assign,hplace]
      change (assign new steps _).bind _=_
      rw [hinner']
      rfl
    | key name =>
      cases steps with
      | nil => exact ⟨_,rfl⟩
      | cons next rest =>
        obtain ⟨inner,-,hinner,-⟩ := assign_key hw
        obtain ⟨inner',hinner'⟩ := ih h.2 (hinner (List.cons_ne_nil _ _))
          ((v.asTable.get? (Text.lower name)).getD unset)
        refine ⟨v.asTable.withEntry (Text.lower name) inner',?_⟩
        rw [assign]
        · simp only [hinner']
          rfl
        · nofun

def Blank (v? : Option Value) : Prop := ∀ v∈v?,v.isNull

theorem assign_key_congr {v w : Value} (h : v.asTable=w.asTable) (new : Value) (name : String)
    (rest : List Step) : assign new (key name :: rest) v=assign new (key name :: rest) w := by
  cases rest with
  | nil =>
    change some (put name v new)=some (put name w new)
    cases new <;> simp only [put,h]
  | cons step rest =>
    rw [assign,assign,h]
    · nofun
    · nofun

theorem assign_index_congr {v w : Value} (h : v.asList=w.asList) (new : Value) (i : Int)
    (rest : List Step) : assign new (index i :: rest) v=assign new (index i :: rest) w := by
  rw [assign,assign,h]

theorem assign_null {v w : Value} (hv : v.isNull) (hw : w.isNull) (new : Value) (step : Step)
    (rest : List Step) : assign new (step :: rest) v=assign new (step :: rest) w := by
  have empty {v : Value} (h : v.isNull) : v.asTable=emptyTable ∧ v.asList=(none,[]) := by
    cases v with
    | scalar o s => exact ⟨rfl,rfl⟩
    | list o items => cases h
    | table o es => cases h
  cases step with
  | key name => exact assign_key_congr ((empty hv).1.trans (empty hw).1.symm) _ _ _
  | index i => exact assign_index_congr ((empty hv).2.trans (empty hw).2.symm) _ _ _

theorem assign_below_congr {v? w? : Option Value} (hv : Blank v?) (hw : Blank w?) (new : Value)
    (step : Step) (rest : List Step) :
    assign new (step :: rest) (v?.getD unset)=assign new (step :: rest) (w?.getD unset) := by
  have isNull {v? : Option Value} (h : Blank v?) : (v?.getD unset).isNull := by
    cases v? with
    | none => rfl
    | some v => exact h v rfl
  exact assign_null (isNull hv) (isNull hw) _ _ _

theorem at?_cons_cons (v : Value) (n m : String) (path : List String) :
    v.at? (n :: m :: path)=((v.get? n).getD unset).at? (m :: path) := by
  rw [at?]
  cases v.get? n <;> rfl

theorem at?_below (v : Value) (n m : String) (path : List String) :
    ((v.get? n).getD emptyTable).at? (m :: path)=v.at? (n :: m :: path) := by
  rw [at?_cons_cons]
  cases v.get? n <;> rfl

theorem at?_withEntry_congr {v w inner inner' : Value} {n m : String} {path : List String}
    (h : v.at? (m :: path)=w.at? (m :: path)) (below : m=n → inner.at? path=inner'.at? path) :
    (v.asTable.withEntry n inner).at? (m :: path)=
      (w.asTable.withEntry n inner').at? (m :: path) := by
  rw [at?_withEntry,at?_withEntry]
  split
  · rename_i hn
    exact below (eq_of_beq hn)
  · exact h

mutual

theorem at?_put_congr {v w : Value} {m : String} {path : List String}
    (h : v.at? (m :: path)=w.at? (m :: path)) (name : String) :
    ∀ new : Value,(put name v new).at? (m :: path)=(put name w new).at? (m :: path)
  | scalar _ _ | list _ _ => at?_withEntry_congr h fun _ => rfl
  | table o es => by
    apply at?_withEntry_congr h
    rintro rfl
    rw [get?_asTable,get?_asTable]
    cases path with
    | nil =>
      rw [at?_single,at?_single] at h
      rw [h]
    | cons n path => exact at?_merge_congr (by rw [at?_below,at?_below,h]) es

theorem at?_merge_congr {v w : Value} {m : String} {path : List String}
    (h : v.at? (m :: path)=w.at? (m :: path)) :
    ∀ es : List (String×Value),(merge v es).at? (m :: path)=(merge w es).at? (m :: path)
  | [] => h
  | (name,new) :: rest => at?_merge_congr (at?_put_congr h name new) rest

end

theorem at?_assign_eq {new v w v' w' : Value} {steps : List Step} {path : List String}
    (h : v.at? path=w.at? path) (hv : assign new steps v=some v')
    (hw : assign new steps w=some w') : v'.at? path=w'.at? path := by
  induction steps generalizing v w v' w' path with
  | nil =>
    obtain rfl := Option.some.inj hv
    obtain rfl := Option.some.inj hw
    rfl
  | cons step steps ih =>
    match path,step with
    | [],_ =>
      obtain rfl := Option.some.inj h
      rw [Option.some.inj (hv.symm.trans hw)]
    | n :: path,index i =>
      obtain ⟨_,_,-,-,rfl⟩ := assign_index hv
      obtain ⟨_,_,-,-,rfl⟩ := assign_index hw
      rfl
    | n :: path,key name =>
      cases steps with
      | nil =>
        obtain rfl := Option.some.inj hv
        obtain rfl := Option.some.inj hw
        exact at?_put_congr h name new
      | cons next rest =>
        obtain ⟨a,rfl,ha,-⟩ := assign_key hv
        obtain ⟨b,rfl,hb,-⟩ := assign_key hw
        have ha := ha (List.cons_ne_nil _ _)
        have hb := hb (List.cons_ne_nil _ _)
        apply at?_withEntry_congr h
        rintro rfl
        cases path with
        | nil =>
          rw [at?_single,at?_single] at h
          rw [h] at ha
          rw [Option.some.inj (ha.symm.trans hb)]
        | cons m path =>
          rw [at?_cons_cons,at?_cons_cons] at h
          exact ih h ha hb

/-- Two values that have nothing set at the end of a path agree there after the same assignment,
unless it leaves both alone. -/
theorem at?_assign_of_blank {new v w v' w' : Value} {steps : List Step} {path : List String}
    (hnew : new.isTable=false) (blankV : Blank (v.at? path)) (blankW : Blank (w.at? path))
    (hv : assign new steps v=some v') (hw : assign new steps w=some w') :
    v'.at? path=w'.at? path ∨ v'.at? path=v.at? path ∧ w'.at? path=w.at? path := by
  induction steps generalizing v w v' w' path with
  | nil =>
    obtain rfl := Option.some.inj hv
    obtain rfl := Option.some.inj hw
    exact .inl rfl
  | cons step steps ih =>
    match path,step with
    | [],_ =>
      have same := (assign_below_congr blankV blankW new _ _).trans hw
      obtain rfl := Option.some.inj (hv.symm.trans same)
      exact .inl rfl
    | n :: path,index i =>
      obtain ⟨_,_,-,-,rfl⟩ := assign_index hv
      obtain ⟨_,_,-,-,rfl⟩ := assign_index hw
      exact .inl rfl
    | n :: path,key name =>
      obtain ⟨a,rfl,ha,plainA⟩ := assign_key hv
      obtain ⟨b,rfl,hb,plainB⟩ := assign_key hw
      rw [at?_withEntry,at?_withEntry]
      by_cases hn : n==Text.lower name
      · rw [if_pos hn,if_pos hn]
        obtain rfl := eq_of_beq hn
        match steps,path with
        | [],_ => exact .inl (by rw [plainA rfl hnew,plainB rfl hnew])
        | next :: rest,[] =>
          rw [at?_single] at blankV blankW
          have same := assign_below_congr blankV blankW new next rest
          rw [ha (List.cons_ne_nil _ _),hb (List.cons_ne_nil _ _)] at same
          exact .inl (congrArg (·.at? []) (Option.some.inj same))
        | next :: rest,m :: path =>
          rw [at?_cons_cons] at blankV blankW
          rw [at?_cons_cons,at?_cons_cons]
          exact ih blankV blankW (ha (List.cons_ne_nil _ _)) (hb (List.cons_ne_nil _ _))
      · rw [if_neg hn,if_neg hn]
        exact .inr ⟨rfl,rfl⟩

def OpenAt (root : Value) (n : String) : Prop := ∀ v,root.get? n=some v → v.isTable

theorem openAt_emptyTable (n : String) : emptyTable.OpenAt n := by
  intro v hv
  cases hv

theorem openAt_assign {new root r : Value} {steps : List Step} {n m : String}
    (h : leads steps [n,m] ∨ parts steps [n,m]) (hopen : root.OpenAt n)
    (ha : assign new steps root=some r) : r.OpenAt n := by
  have below : ∃ name rest,steps=key name :: rest ∧
      (Text.lower name=n → ∃ inside behind,rest=key inside :: behind) := by
    rcases h with h | h
    · obtain ⟨name,rest,rfl,-,hleads⟩ := cons_of_leads h
      obtain ⟨inside,behind,rfl,-⟩ := cons_of_leads hleads
      exact ⟨name,_,rfl,fun _ => ⟨inside,behind,rfl⟩⟩
    · obtain ⟨name,rest,n',path,rfl,hpath,hparts⟩ := cons_of_parts h
      obtain ⟨rfl,rfl⟩ := List.cons.inj hpath
      refine ⟨name,rest,rfl,fun hname => ?_⟩
      obtain ⟨inside,behind,-,-,rfl,-⟩ := cons_of_parts (hparts.resolve_left (absurd hname))
      exact ⟨inside,behind,rfl⟩
  obtain ⟨name,rest,rfl,hbelow⟩ := below
  obtain ⟨inner,rfl,hinner,-⟩ := assign_key ha
  intro v hv
  rw [get?_withEntry] at hv
  split at hv
  · rename_i hn
    obtain ⟨inside,behind,rfl⟩ := hbelow (eq_of_beq hn).symm
    obtain ⟨_,hr,-⟩ := assign_key (hinner (List.cons_ne_nil _ _))
    obtain rfl := Option.some.inj hv
    rw [hr]
    exact withEntry_isTable _ _ _
  · rw [get?_asTable] at hv
    exact hopen v hv

theorem openAt_withEntry_congr {v w inner inner' : Value} {n m : String}
    (h : v.OpenAt n → w.OpenAt n) (below : n=m → inner.isTable → inner'.isTable) :
    (v.asTable.withEntry m inner).OpenAt n → (w.asTable.withEntry m inner').OpenAt n := by
  unfold OpenAt at h ⊢
  simp only [get?_withEntry,get?_asTable]
  split
  · rename_i hn
    rintro first x ⟨⟩
    exact below (eq_of_beq hn) (first _ rfl)
  · exact h

theorem merge_isTable {v : Value} (h : v.isTable) (es : List (String×Value)) :
    (merge v es).isTable := by
  induction es generalizing v with
  | nil => exact h
  | cons e es ih =>
    obtain ⟨inner,hput,-⟩ := put_eq e.1 v e.2
    apply ih
    rw [hput]
    exact withEntry_isTable _ _ _

/-- Merging a table into what stands under a name leaves a table there unless there was something
else and nothing has been merged. -/
theorem isTable_below {v : Value} {n : String} {es : List (String×Value)} :
    (merge ((v.asTable.get? n).getD emptyTable) es).isTable ↔ v.OpenAt n ∨ es≠[] := by
  rw [get?_asTable]
  cases es with
  | nil =>
    unfold OpenAt
    cases v.get? n <;> simp [merge,isTable,emptyTable]
  | cons e es =>
    obtain ⟨inner,hput,-⟩ := put_eq e.1 ((v.get? n).getD emptyTable) e.2
    have table := merge_isTable (withEntry_isTable
      ((v.get? n).getD emptyTable).asTable (Text.lower e.1) inner) es
    rw [←hput] at table
    exact iff_of_true table (.inr (List.cons_ne_nil _ _))

theorem openAt_put_congr {v w : Value} {n : String} (h : v.OpenAt n → w.OpenAt n) (name : String)
    (new : Value) : (put name v new).OpenAt n → (put name w new).OpenAt n := by
  cases new with
  | scalar o s => exact openAt_withEntry_congr h fun _ => id
  | list o items => exact openAt_withEntry_congr h fun _ => id
  | table o es =>
    apply openAt_withEntry_congr h
    rintro rfl
    rw [isTable_below,isTable_below]
    exact Or.imp_left h

/-- Of two values to which the same is assigned, the second one keeps to tables under a name if it
did so before whenever the first one did. -/
theorem openAt_assign_congr {new v w v' w' : Value} {steps : List Step} {n : String}
    (h : v.OpenAt n → w.OpenAt n) (hv : assign new steps v=some v')
    (hw : assign new steps w=some w') : v'.OpenAt n → w'.OpenAt n := by
  match steps with
  | [] =>
    obtain rfl := Option.some.inj hv
    obtain rfl := Option.some.inj hw
    exact id
  | index i :: rest =>
    obtain ⟨_,_,-,-,rfl⟩ := assign_index hw
    rintro - x ⟨⟩
  | [key name] =>
    obtain rfl := Option.some.inj hv
    obtain rfl := Option.some.inj hw
    exact openAt_put_congr h name new
  | key name :: next :: rest =>
    obtain ⟨a,rfl,ha,-⟩ := assign_key hv
    obtain ⟨b,rfl,hb,-⟩ := assign_key hw
    have ha := ha (List.cons_ne_nil _ _)
    have hb := hb (List.cons_ne_nil _ _)
    apply openAt_withEntry_congr h
    rintro rfl
    cases next with
    | key inside =>
      obtain ⟨_,rfl,-⟩ := assign_key hb
      exact fun _ => withEntry_isTable _ _ _
    | index i =>
      obtain ⟨_,_,-,-,rfl⟩ := assign_index ha
      nofun

theorem get?_assign_congr {new v w v' w' : Value} {steps : List Step} {n : String}
    (hnew : new.isTable=false) (h : v.get? n=w.get? n ∨ v.OpenAt n ∧ w.OpenAt n)
    (hv : assign new steps v=some v') (hw : assign new steps w=some w') :
    v'.get? n=w'.get? n ∨ v'.OpenAt n ∧ w'.OpenAt n := by
  match steps with
  | [] =>
    obtain rfl := Option.some.inj hv
    obtain rfl := Option.some.inj hw
    exact .inl rfl
  | index i :: rest =>
    obtain ⟨_,_,-,-,rfl⟩ := assign_index hv
    obtain ⟨_,_,-,-,rfl⟩ := assign_index hw
    exact .inl rfl
  | key name :: rest =>
    obtain ⟨a,rfl,ha,plainA⟩ := assign_key hv
    obtain ⟨b,rfl,hb,plainB⟩ := assign_key hw
    unfold OpenAt
    simp only [get?_withEntry,get?_asTable]
    by_cases hn : n==Text.lower name
    · simp only [if_pos hn]
      obtain rfl := eq_of_beq hn
      match rest with
      | [] => exact .inl (by rw [plainA rfl hnew,plainB rfl hnew])
      | key inside :: rest =>
        right
        obtain ⟨_,rfl,-⟩ := assign_key (ha (List.cons_ne_nil _ _))
        obtain ⟨_,rfl,-⟩ := assign_key (hb (List.cons_ne_nil _ _))
        constructor
        · rintro _ ⟨⟩
          exact withEntry_isTable _ _ _
        · rintro _ ⟨⟩
          exact withEntry_isTable _ _ _
      | index i :: rest =>
        left
        have noItems {v : Value} (h : v.OpenAt (Text.lower name)) :
            ((v.get? (Text.lower name)).getD unset).asList=(none,[]) := by
          cases hget : v.get? (Text.lower name) with
          | none => rfl
          | some x =>
            have htable := h x hget
            cases x with
            | scalar o s => cases htable
            | list o items => cases htable
            | table o es => rfl
        have same := ha (List.cons_ne_nil _ _)
        rcases h with h | ⟨hv,hw⟩
        · rw [h,hb (List.cons_ne_nil _ _)] at same
          exact same.symm
        · rw [assign_index_congr ((noItems hv).trans (noItems hw).symm),
            hb (List.cons_ne_nil _ _)] at same
          exact same.symm
    · simp only [if_neg hn]
      exact h

theorem absorb_eq_assign (root : Value) (key : String) (new : Value) :
    root.absorb key new=assign new (stepsOf key) root := by
  unfold absorb stepsOf
  cases KeyPath.parse? key <;> rfl

theorem absorbAll_keeps (P : Value → Prop) {layer : List (String×Value)} {root r : Value}
    (step : ∀ e∈layer,∀ v w,P v → assign e.2 (stepsOf e.1) v=some w → P w) (hroot : P root)
    (ha : root.absorbAll layer=some r) : P r := by
  induction layer generalizing root with
  | nil =>
    obtain rfl := Option.some.inj ha
    exact hroot
  | cons e layer ih =>
    obtain ⟨next,hnext,hrest⟩ := Option.bind_eq_some_iff.mp ha
    rw [absorb_eq_assign] at hnext
    apply ih (fun e' he' => step e' (List.mem_cons_of_mem _ he')) _ hrest
    exact step e List.mem_cons_self root next hroot hnext

theorem absorbAll_relates (R : Value → Value → Prop) {layer : List (String×Value)}
    (step : ∀ e∈layer,∀ v w v' w',R v w → assign e.2 (stepsOf e.1) v=some v' →
      assign e.2 (stepsOf e.1) w=some w' → R v' w')
    {v w v' w' : Value} (h : R v w) (hv : v.absorbAll layer=some v')
    (hw : w.absorbAll layer=some w') : R v' w' := by
  induction layer generalizing v w with
  | nil =>
    obtain rfl := Option.some.inj hv
    obtain rfl := Option.some.inj hw
    exact h
  | cons e layer ih =>
    obtain ⟨v₁,hv₁,hv⟩ := Option.bind_eq_some_iff.mp hv
    obtain ⟨w₁,hw₁,hw⟩ := Option.bind_eq_some_iff.mp hw
    rw [absorb_eq_assign] at hv₁ hw₁
    apply ih (fun e' he' => step e' (List.mem_cons_of_mem _ he')) _ hv hw
    exact step e List.mem_cons_self v w v₁ w₁ h hv₁ hw₁

theorem absorbAll_append (root : Value) (first second : List (String×Value)) :
    root.absorbAll (first++second)=(root.absorbAll first).bind (·.absorbAll second) := by
  induction first generalizing root with
  | nil => rfl
  | cons e first ih =>
    change (root.absorb e.1 e.2).bind _=((root.absorb e.1 e.2).bind _).bind _
    cases root.absorb e.1 e.2 with
    | none => rfl
    | some next => exact ih next

theorem absorbAll_isSome {layer : List (String×Value)} (h : ∀ e∈layer,(stepsOf e.1).all isForward)
    {w w' : Value} (hw : w.absorbAll layer=some w') (v : Value) :
    ∃ v',v.absorbAll layer=some v' := by
  induction layer generalizing v w with
  | nil => exact ⟨v,rfl⟩
  | cons e layer ih =>
    obtain ⟨next,hnext,hw⟩ := Option.bind_eq_some_iff.mp hw
    rw [absorb_eq_assign] at hnext
    obtain ⟨next',hnext'⟩ := assign_isSome (h e List.mem_cons_self) hnext v
    obtain ⟨v',hv'⟩ := ih (fun e' he' => h e' (List.mem_cons_of_mem _ he')) hw next'
    refine ⟨v',?_⟩
    rw [absorbAll,absorb_eq_assign,hnext']
    exact hv'

/-- Of two values into which one source is absorbed, the first keeps at the end of a path what the
second has there, or else what it had before. -/
theorem at?_absorbAll {layer : List (String×Value)} {path : List String}
    (plain : ∀ e∈layer,e.2.isTable=false)
    (whole : ∀ e∈layer,leads (stepsOf e.1) path ∨ parts (stepsOf e.1) path) {before : Option Value}
    {v w v' w' : Value} (h : v.at? path=(w.at? path).or before) (hv : v.absorbAll layer=some v')
    (hw : w.absorbAll layer=some w') : v'.at? path=(w'.at? path).or before := by
  refine absorbAll_relates (fun v w => v.at? path=(w.at? path).or before) ?_ h hv hw
  intro e he v w v' w' h hv hw
  rcases whole e he with hleads | hparts
  · rw [at?_assign_of_leads hleads (plain e he) hv,at?_assign_of_leads hleads (plain e he) hw,
      Option.some_or]
  · rw [at?_assign_of_parts hparts hv,at?_assign_of_parts hparts hw,h]

theorem at?_absorbAll_of_blank {layer : List (String×Value)} {path : List String}
    (plain : ∀ e∈layer,e.2.isTable=false) {v w v' w' : Value} (blankV : Blank (v.at? path))
    (blankW : Blank (w.at? path)) (hv : v.absorbAll layer=some v')
    (hw : w.absorbAll layer=some w') :
    v'.at? path=w'.at? path ∨ v'.at? path=v.at? path ∧ w'.at? path=w.at? path := by
  refine absorbAll_relates (fun v' w' => v'.at? path=w'.at? path ∨
    v'.at? path=v.at? path ∧ w'.at? path=w.at? path) ?_ (.inr ⟨rfl,rfl⟩) hv hw
  rintro e he v₁ w₁ v₂ w₂ (same | ⟨keptV,keptW⟩) hv hw
  · exact .inl (at?_assign_eq same hv hw)
  · rw [←keptV] at blankV ⊢
    rw [←keptW] at blankW ⊢
    exact at?_assign_of_blank (plain e he) blankV blankW hv hw

theorem get?_absorbAll_congr {layer : List (String×Value)} {n : String}
    (plain : ∀ e∈layer,e.2.isTable=false) {v w v' w' : Value}
    (h : v.get? n=w.get? n ∨ v.OpenAt n ∧ w.OpenAt n) (hv : v.absorbAll layer=some v')
    (hw : w.absorbAll layer=some w') : v'.get? n=w'.get? n ∨ v'.OpenAt n ∧ w'.OpenAt n := by
  refine absorbAll_relates (fun v w => v.get? n=w.get? n ∨ v.OpenAt n ∧ w.OpenAt n) ?_ h hv hw
  intro e he v w v' w' h hv hw
  exact get?_assign_congr (plain e he) h hv hw

end Value
end SchedLatency.Config
