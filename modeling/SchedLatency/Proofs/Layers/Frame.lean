import SchedLatency.Proofs.Layers.Merging

namespace SchedLatency

namespace Config

namespace Step

def diverge : List String → List String → Bool
  | n :: p,m :: q => !(n==m) || diverge p q
  | _,_ => false

theorem parts_of_leads {steps : List Step} {p q : List String} (h : leads steps p)
    (hd : diverge p q) : parts steps q := by
  induction steps generalizing p q with
  | nil =>
    cases p with
    | nil => cases hd
    | cons n p => cases h
  | cons step steps ih =>
    match p,q with
    | [],_ => cases hd
    | _ :: _,[] => cases hd
    | n :: p,m :: q =>
      obtain ⟨name,rest,hsteps,rfl,hleads⟩ := cons_of_leads h
      obtain ⟨rfl,rfl⟩ := List.cons.inj hsteps
      rw [diverge,Bool.or_eq_true] at hd
      rw [parts,Bool.or_eq_true]
      exact hd.imp_right (ih hleads)

end Step

namespace Value

/-- A table of one entry is merged as if the entry were assigned along both names. -/
theorem put_single (outer inner : String) (root v : Value) (origin : Option String) :
    some (put outer root (.table origin [(inner,v)]))=assign v [.key outer,.key inner] root := by
  have same : put inner emptyTable v=put inner unset v := by
    cases v <;> rfl
  rw [assign]
  · change some (root.asTable.withEntry _ (put inner _ v))=some (root.asTable.withEntry _ _)
    cases root.asTable.get? (Text.lower outer) with
    | none => rw [Option.getD_none,Option.getD_none,same]
    | some table => rfl
  · exact List.cons_ne_nil _ _

end Value
end Config

namespace Settings

open Config
open Config.Value (emptyTable)
open Config.Step (leads parts diverge)

/-- An entry of a source by which one setting is set. -/
inductive Key.SetBy (k : Key) : String×Value → Prop
  | path {key : String} {v : Value} (h : leads (stepsOf key) k.path) : SetBy k (key,v)
  | inside {outer inner : String} {origin : Option String} {v : Value} (hk : k.inOutput)
      (houter : leads (stepsOf outer) ["output"]) (hinner : Text.lower inner=k.name) :
      SetBy k (outer,.table origin [(inner,v)])

theorem Key.diverge_path {k other : Key} (h : k≠other) : diverge other.path k.path := by
  cases k <;> cases other <;> first | exact absurd rfl h | rfl

theorem Key.diverge_output {k : Key} (h : k.inOutput=false) : diverge k.path ["output"] := by
  cases k <;> first | rfl | cases h

theorem absorb_of_setBy {k : Key} {e : String×Value} (h : k.SetBy e) (root : Value) :
    ∃ steps v,leads steps k.path ∧ root.absorb e.1 e.2=Value.assign v steps root := by
  cases h with
  | path h => exact ⟨_,_,h,Value.absorb_eq_assign _ _ _⟩
  | @inside outer inner origin v hk houter hinner =>
    obtain ⟨name,rest,hsteps,hname,hrest⟩ := Step.cons_of_leads houter
    obtain rfl : rest=[] := by
      cases rest with
      | nil => rfl
      | cons step rest => cases step <;> cases hrest
    refine ⟨[.key name,.key inner],v,?_,?_⟩
    · simp [Key.path,hk,leads,hname,hinner]
    · rw [Value.absorb_eq_assign,hsteps,←Value.put_single]
      rfl

theorem absorbAll_insert {before after : Layer} {e : String×Value} {k : Key} (he : k.SetBy e)
    {root without within : Value} (hwithout : root.absorbAll (before++after)=some without)
    (hwithin : root.absorbAll (before++e :: after)=some within) : ∃ steps v old new,
    leads steps k.path ∧ Value.assign v steps old=some new ∧
      old.absorbAll after=some without ∧ new.absorbAll after=some within := by
  rw [Value.absorbAll_append] at hwithout hwithin
  obtain ⟨old,hold,hwithout⟩ := Option.bind_eq_some_iff.mp hwithout
  rw [hold,Option.bind_some] at hwithin
  obtain ⟨new,hnew,hwithin⟩ := Option.bind_eq_some_iff.mp hwithin
  obtain ⟨steps,v,hleads,habsorb⟩ := absorb_of_setBy he old
  rw [habsorb] at hnew
  exact ⟨steps,v,old,new,hleads,hnew,hwithout,hwithin⟩

theorem openAt_of_leads {k : Key} (hk : k.inOutput) {steps : List Step} {v old new : Value}
    (hleads : leads steps k.path) (hassign : Value.assign v steps old=some new) :
    new.OpenAt "output" := by
  rw [Key.path,if_pos hk] at hleads
  obtain ⟨name,rest,rfl,hname,hrest⟩ := Step.cons_of_leads hleads
  obtain ⟨inside,behind,rfl,-,-⟩ := Step.cons_of_leads hrest
  obtain ⟨_,rfl,hinner,-⟩ := Value.assign_key hassign
  obtain ⟨_,rfl,-⟩ := Value.assign_key (hinner (List.cons_ne_nil _ _))
  intro x hx
  rw [Value.get?_withEntry,hname,if_pos (beq_self_eq_true _)] at hx
  obtain rfl := Option.some.inj hx
  exact Value.withEntry_isTable _ _ _

/-- Setting one setting, wherever the source says so, leaves alone what it says about any other. -/
theorem said_insert {before after : Layer} {e : String×Value} {k other : Key} {s s' : Settings}
    (hwithout : ofLayers (before++after) []=.ok s)
    (hwithin : ofLayers (before++e :: after) []=.ok s') (he : other.SetBy e) (hk : k≠other)
    (shape : other.inOutput → ¬ListOutput (before++after)) :
    k.said (before++e :: after)=k.said (before++after) := by
  obtain ⟨without,htable,readWithout,-⟩ := exists_table hwithout
  obtain ⟨within,htable',readWithin,-⟩ := exists_table hwithin
  obtain ⟨steps,v,old,new,hleads,hassign,hold,hnew⟩ := absorbAll_insert he htable htable'
  have at?_eq {path : List String} (hparts : parts steps path) :
      within.at? path=without.at? path :=
    Value.absorbAll_relates (fun v w => v.at? path=w.at? path)
      (fun _ _ _ _ _ _ => Value.at?_assign_eq) (Value.at?_assign_of_parts hparts hassign)
      hnew hold
  have kept := at?_eq (Step.parts_of_leads hleads (Key.diverge_path hk))
  have hread : k.read within=k.read without := by
    cases hout : other.inOutput with
    | true =>
      have hopen := openAt_output (shape hout) htable readWithout
      have hopen' : without.OpenAt "output" → within.OpenAt "output" :=
        Value.absorbAll_relates (fun v w => v.OpenAt "output" → w.OpenAt "output")
          (fun _ _ _ _ _ _ => Value.openAt_assign_congr)
          (fun _ => openAt_of_leads hout hleads hassign) hold hnew
      rw [read_eq_decode fun _ => hopen,read_eq_decode fun _ => hopen' hopen,kept]
    | false =>
      by_cases hk : k.inOutput
      · have output := at?_eq (Step.parts_of_leads hleads (Key.diverge_output hout))
        rw [Value.at?_single,Value.at?_single] at output
        rw [Key.read_of_inOutput hk,Key.read_of_inOutput hk,output]
      · rw [read_eq_decode (absurd · hk),read_eq_decode (absurd · hk),kept]
  exact Except.ok.inj ((readWithin k).symm.trans (hread.trans (readWithout k)))

end Settings
end SchedLatency
