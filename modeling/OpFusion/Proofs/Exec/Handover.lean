/-
  A call hands back what it was given, and each buffer once.

  The applications may be of library kinds, or of scripted kinds whose statements give up nothing that is
  needed later (`Statement.Tame`). `Stocked g start position made f`: before the application at `position`
  runs, all buffers are owned, and what it or a later application reads is at hand. Every application keeps
  this or leaves with all buffers owned (`Stocked.runPlan_ends`), so that a call never breaks a rule of
  memory, and in the end the live buffers are the inputs and those in the output slots (`run_hands`).
-/
import OpFusion.Proofs.Exec.Fusion

namespace OpFusion

/-! ## Applications that keep to the rules -/

/-- An extent that can be read: a number, or an extent on an axis that an input has. -/
def Extent.Within (c : Context) : Extent → Prop
  | .number _ => True
  | .ofInput input axis => axis < c.inputRank input
  | .code _ => False

/-- A variable is read by the application at a position or by a later one. -/
def Graph.ReadFrom (g : Graph) (position v : Nat) : Prop :=
  ∃ i ≥ position, ∃ a : Application, g.applications[i]? = some a ∧ v ∈ a.inputs

theorem Graph.ReadFrom.of_succ {g : Graph} {position v : Nat} (h : g.ReadFrom (position + 1) v) :
    g.ReadFrom position v := by
  obtain ⟨i, hi, a, ha, hv⟩ := h
  exact ⟨i, by omega, a, ha, hv⟩

/-- A statement of the application at a position that keeps to the rules of memory: it may fail, report,
set the status, allocate and give up a buffer, give up nothing, try to give up an input of the graph, and
give up an output that no later application reads. -/
def Statement.Tame (g : Graph) (position : Nat) (a : Application) : Statement → Prop
  | .fail _ | .note _ | .noteNothing | .status _ | .releaseNothing => True
  | .releaseInput index => ∃ v ∈ g.inputs, a.inputs[index]? = some v
  | .dropOutput index => ∃ v, g.outputs[index]? = some v ∧ ¬ g.ReadFrom (position + 1) v
  | .allocate _ rank dims => dims = [] ∨ halfWord rank ≤ dims.length
  | .set _ _ _ | .count _ => False

/-- An application of a library kind, or of a scripted kind that keeps to the rules of memory. -/
inductive Graph.Tame (g : Graph) (position : Nat) (a : Application) : Prop
  | kernel (k : Kernel) : a.kind = k.kind → g.Tame position a
  | steps (s : Script) (statements : List Statement) : a.kind = s.toKind → s.body = .steps statements →
      (∀ statement ∈ statements, statement.Tame g position a) →
      (∀ index < a.outputs.length, ∀ e ∈ s.extentsOf (Assembly.context g position a) index,
        e.Within (Assembly.context g position a)) → g.Tame position a

/-! ## What is at hand -/

/-- The slot of a variable holds a buffer of its type and rank. -/
def AtHand (g : Graph) (f : Frame) (v : Nat) : Prop :=
  ∃ b, f.buffer? (g.slot v) = some b ∧ Loaded.descOf b = (g.binding v).desc

/-- A frame has as many slots as a graph asks for. -/
structure Shaped (g : Graph) (f : Frame) : Prop where
  inputs : f.inputs.length = g.inputs.length
  outputs : f.outputs.length = g.outputs.length
  temps : f.temps.length = g.tempCount

section

variable {g : Graph} {start f f' : Frame} {position : Nat} {made : List Nat} {a : Application} {v : Nat}
  {s : Slot} {operand : Nat → Tensor}

theorem Shaped.exists_slot (h : Shaped g f) (hs : g.HasSlot s) : ∃ x, f.slot? s = some x := by
  cases s with
  | input i =>
    have hlt : i < f.inputs.length := by
      rw [h.inputs]
      exact hs
    exact ⟨some f.inputs[i], by simp [Frame.slot?, hlt]⟩
  | output i =>
    have hlt : i < f.outputs.length := by
      rw [h.outputs]
      exact hs
    exact ⟨_, List.getElem?_eq_getElem hlt⟩
  | temp i =>
    have hlt : i < f.temps.length := by
      rw [h.temps]
      exact hs
    exact ⟨_, List.getElem?_eq_getElem hlt⟩

theorem Shaped.slot? (hshape : Shaped g start) (h : Frame.Owned start f) (hs : g.HasSlot s) :
    ∃ x, f.slot? s = some x := by
  refine Shaped.exists_slot ⟨?_, h.outputs.trans hshape.outputs, h.temps.trans hshape.temps⟩ hs
  rw [h.inputs, hshape.inputs]

theorem AtHand.same (h : AtHand g f v) (hsame : Frame.Same f f') : AtHand g f' v := by
  obtain ⟨b, hb, hdesc⟩ := h
  exact ⟨b, (hsame.buffer? _).trans hb, hdesc⟩

theorem AtHand.keeps (h : AtHand g f v) (hkeeps : Frame.Keeps s f f') (hs : g.slot v ≠ s) :
    AtHand g f' v := by
  obtain ⟨b, hb, hdesc⟩ := h
  exact ⟨b, (hkeeps.buffer? hs).trans hb, hdesc⟩

/-- All buffers are owned, and what is read from a position on is at hand. -/
structure Stocked (g : Graph) (start : Frame) (position : Nat) (made : List Nat) (f : Frame) : Prop where
  owned : Frame.Owned start f
  atHand : ∀ v, v ∈ g.inputs ∨ v ∈ made → g.ReadFrom position v → AtHand g f v

theorem Stocked.same (h : Stocked g start position made f) (hsame : Frame.Same f f') :
    Stocked g start position made f' :=
  ⟨h.owned.same hsame, fun v hv hread => (h.atHand v hv hread).same hsame⟩

/-! ## Outputs in place -/

/-- The operands of an application are taken if they are at hand. -/
theorem fed_of_atHand (hf : f.Separate) (h : ∀ v ∈ a.inputs, AtHand g f v) :
    ∃ operand operands, (a.inputs.map g.slot).mapM f.slot? = some operands ∧
      Fed g a operand { f with operands, results := [] } := by
  let operand : Nat → Tensor := fun i =>
    ((a.inputs[i]?.bind fun v => f.buffer? (g.slot v)).map Buffer.tensor).getD default
  refine ⟨operand, exists_fed hf fun i v hv => ?_⟩
  obtain ⟨b, hb, hdesc⟩ := h v (List.mem_of_getElem? hv)
  have htensor : operand i = b.tensor := by simp [operand, hv, hb]
  rw [htensor]
  exact ⟨b, hb, rfl, hdesc⟩

/-- The operands of an application that comes next are taken. -/
theorem Stocked.fed (h : Stocked g start position made f) (hnext : g.Next made a)
    (ha : g.applications[position]? = some a) :
    ∃ operand operands, (a.inputs.map g.slot).mapM f.slot? = some operands ∧
      Fed g a operand { f with operands, results := [] } :=
  fed_of_atHand h.owned.separate fun v hv =>
    h.atHand v (hnext.reads v hv) ⟨position, Nat.le_refl _, a, ha, hv⟩

/-- The extents of outputs can be read. -/
theorem Fed.extent? (h : Fed g a operand f) {e : Extent} (he : e.Within (Assembly.context g position a)) :
    ∃ x, f.extent? e = some x := by
  cases e with
  | number value => exact ⟨_, rfl⟩
  | code text => cases he
  | ofInput input axis =>
    have hlt : axis < (Assembly.context g position a).inputRank input := he
    by_cases hinput : input < a.inputs.length
    · obtain ⟨b, hb, -, ht⟩ := h.operand? hinput
      have hrank : axis < b.dims.length := by
        rw [Context.inputRank, h.desc position hinput, ← ht] at hlt
        exact hlt
      exact ⟨Int64.ofNat b.dims[axis], by simp [Frame.extent?, hb, hrank]⟩
    · simp [Context.inputRank, Assembly.context, Graph.bindings, Nat.not_lt.1 hinput] at hlt

theorem Fed.mapM_extents (h : Fed g a operand f) {extents : List Extent}
    (hwithin : ∀ e ∈ extents, e.Within (Assembly.context g position a)) :
    ∃ dims, extents.mapM f.extent? = some dims ∧ dims.length = extents.length := by
  have heach : ∀ e ∈ extents, f.extent? e = some ((f.extent? e).getD 0) := by
    intro e he
    obtain ⟨x, hx⟩ := h.extent? (hwithin e he)
    rw [hx, Option.getD_some]
  exact ⟨_, Outcome.mapM_eq_some_map heach, List.length_map _⟩

/-- A buffer that is in place for a variable is at hand. -/
theorem atHand_of_ready {d : DType} {dims : List Nat} {address : Nat}
    (h : Frame.Ready f (g.slot v) d dims address) (hdesc : (g.binding v).desc = ⟨d, dims.length⟩) :
    AtHand g f v := by
  obtain ⟨b, hb, hdtype, hdims, -⟩ := h.buffer
  refine ⟨b, by simp [Frame.buffer?, h.slot, hb], ?_⟩
  rw [hdesc, Loaded.descOf, Buffer.rank, hdtype, hdims]

/-- What there is when outputs have been put in place. -/
structure Laid (g : Graph) (start : Frame) (a : Application) (operand : Nat → Tensor) (vars : List Nat)
    (f f' : Frame) : Prop where
  owned : Frame.Owned start f'
  fed : Fed g a operand f'
  new : ∀ v ∈ vars, AtHand g f' v
  old : ∀ w, (∀ v ∈ vars, g.slot w ≠ g.slot v) → AtHand g f w → AtHand g f' w

/-- **The outputs of an application are put in place**, or one of them cannot be allocated. -/
theorem prepareAll_ends (hg : g.WellFormed) (hshape : Shaped g start) {c : Context}
    (hc : c = Assembly.context g position a) {vars : List Nat} (hproduced : ∀ v ∈ vars, v ∈ g.produced)
    (hnodup : vars.Nodup) (hother : ∀ v ∈ vars, ∀ w ∈ a.inputs, g.slot w ≠ g.slot v) {index : Nat}
    {outputs : List OutputPlan} (hplan : Assembly.planOutputs g a c index vars = .ok outputs)
    (hwithin : ∀ o ∈ outputs, ∀ e ∈ o.extents, e.Within c) (h : Frame.Owned start f)
    (hfed : Fed g a operand f) :
    (Frame.prepareAll c index outputs f).Ends (Laid g start a operand vars f) (Frame.Owned start) := by
  induction vars generalizing index outputs f with
  | nil =>
    cases hplan
    exact ⟨h, hfed, by simp, fun w _ hw => hw⟩
  | cons v vars ih =>
    obtain ⟨o, ho, hplan⟩ := Outcome.bind_eq_ok.1 hplan
    obtain ⟨rest, hrest, hplan⟩ := Outcome.bind_eq_ok.1 hplan
    cases hplan
    obtain ⟨extents, -, hlength, rfl⟩ := Assembly.planOutput_eq_ok ho
    obtain ⟨hnew, hnodup⟩ := List.nodup_cons.1 hnodup
    have hv := hproduced v (by simp)
    have hinput := hg.slot_ne_input hv
    obtain ⟨x, hx⟩ := hshape.slot? h (hg.hasSlot (.inr hv))
    obtain ⟨dims, hdims, hdimsLength⟩ :=
      hfed.mapM_extents (hc ▸ hwithin ⟨g.slot v, (g.binding v).desc, extents⟩ (by simp))
    have hrank : (g.binding v).desc.rank = dims.length := by rw [hdimsLength, hlength]
    have hothers : ∀ w ∈ vars, g.slot v ≠ g.slot w := by
      intro w hw heq
      obtain rfl := hg.slot_inj (.inr hv) (.inr (hproduced w (by simp [hw]))) heq
      exact hnew hw
    rw [Frame.prepareAll]
    refine (h.prepare_ends (o := ⟨g.slot v, (g.binding v).desc, extents⟩) hinput hx hdims hrank c
      index).andThen ?_
    rintro f₁ ⟨hf₁, hkeeps, extents', address, rfl, hready, -⟩
    have hvHand : AtHand g f₁ v := by
      refine atHand_of_ready hready ?_
      rw [List.length_map] at hrank
      rw [← hrank]
    refine (ih (fun w hw => hproduced w (by simp [hw])) hnodup (fun w hw => hother w (by simp [hw])) hrest
      (fun o ho => hwithin o (by simp [ho])) (h.keeps hinput hkeeps hf₁)
      (hfed.keeps hkeeps (hother v (by simp)))).mono ?_
    rintro f' ⟨howned, hfed', hnew', hold⟩
    refine ⟨howned, hfed', ?_, ?_⟩
    · intro w hw
      rcases List.mem_cons.1 hw with rfl | hw
      · exact hold w hothers hvHand
      · exact hnew' w hw
    · intro w hw hwHand
      exact hold w (fun u hu => hw u (by simp [hu])) (hwHand.keeps hkeeps (hw v (by simp)))

/-! ## Statements -/

/-- What a statement of a scripted application finds and leaves. -/
structure Serving (g : Graph) (start : Frame) (position : Nat) (made : List Nat) (a : Application)
    (f : Frame) : Prop where
  stocked : Stocked g start position made f
  /-- An operand that is an input of the graph is known as such. -/
  inputs : ∀ i v : Nat, a.inputs[i]? = some v → v ∈ g.inputs →
    ∃ address ∈ f.inputs, f.operands[i]? = some (some address)

theorem Serving.same (h : Serving g start position made a f) (hsame : Frame.Same f f')
    (hoperands : f'.operands = f.operands) : Serving g start position made a f' :=
  ⟨h.stocked.same hsame, fun i v hi hv => by
    rw [hsame.inputs, hoperands]
    exact h.inputs i v hi hv⟩

theorem Statement.passedDims_some {rank : Nat} {dims : List Int} (h : dims = [] ∨ rank ≤ dims.length) :
    ∃ passed, passedDims rank dims = some passed := by
  unfold passedDims
  split
  · exact ⟨_, rfl⟩
  · next hne =>
    rcases h with rfl | hle
    · exact absurd rfl hne
    · rw [if_pos hle]
      exact ⟨_, rfl⟩

/-- **A statement that keeps to the rules leaves what is needed later.** -/
theorem Statement.Tame.run_ends {statement : Statement} (ht : statement.Tame g position a)
    (hg : g.WellFormed) (hshape : Shaped g start) (hmade : ∀ v ∈ made, v ∈ g.produced) (c : Context)
    (h : Serving g start (position + 1) made a f) :
    (statement.run c f).Ends (Serving g start (position + 1) made a) (Frame.Owned start) := by
  cases statement with
  | fail message => exact h.stocked.owned.fail_ends _
  | note bytes => exact h.same (Frame.same_record f _) rfl
  | noteNothing => exact h.same (Frame.same_record f _) rfl
  | status value => exact h.same ⟨fun _ => rfl, rfl, rfl, rfl⟩ rfl
  | releaseNothing => exact h
  | releaseInput index =>
    obtain ⟨v, hv, hindex⟩ := ht
    obtain ⟨address, hin, hoperand⟩ := h.inputs index v hindex hv
    have hrun : (Statement.releaseInput index).run c f = .next (f.record Frame.inputReleased) := by
      simp [Statement.run, hoperand, Flow.given, Frame.releaseSome, Frame.release, hin]
    rw [hrun]
    exact h.same (Frame.same_record f _) rfl
  | dropOutput index =>
    obtain ⟨v, hindex, hunread⟩ := ht
    obtain ⟨hlt, hv⟩ := List.getElem?_eq_some_iff.1 hindex
    have hlt' : index < f.outputs.length := by
      rw [h.stocked.owned.outputs, hshape.outputs]
      exact hlt
    have hslot : g.slot v = .output index := by
      rw [Graph.slot_output (List.mem_of_getElem? hindex), ← hv, hg.outputs_nodup.idxOf_getElem]
    refine (h.stocked.owned.drop_ends c hlt').mono ?_
    rintro f' ⟨hf', hkeeps⟩
    refine ⟨⟨h.stocked.owned.keeps (by simp) hkeeps hf', fun w hw hread => ?_⟩, fun i w hi hw => ?_⟩
    · refine (h.stocked.atHand w hw hread).keeps hkeeps fun heq => ?_
      have hdef : g.Defined w := hw.imp_right (hmade w)
      have hvdef : g.Defined v := .inr (hg.outputs_produced v (List.mem_of_getElem? hindex))
      obtain rfl := hg.slot_inj hdef hvdef (heq.trans hslot.symm)
      exact hunread hread
    · rw [hkeeps.inputs, hkeeps.operands]
      exact h.inputs i w hi hw
  | allocate tag rank dims =>
    obtain ⟨passed, hpassed⟩ := Statement.passedDims_some ht
    rw [Statement.run, hpassed, Flow.given]
    exact (h.stocked.owned.reserve_ends _ _ passed).mono fun f' hf' => h.same hf'.1 hf'.2
  | set output position value => cases ht
  | count symbol => cases ht

/-! ## Applications -/

/-- The outputs of an application are put in place, and its statements run. -/
theorem Laid.serving (h : Laid g start a operand a.outputs f f') (hg : g.WellFormed)
    (hnext : g.Next made a) (hf : Stocked g start position made f) :
    Serving g start (position + 1) (made ++ a.outputs) a f' := by
  refine ⟨⟨h.owned, fun v hv hread => ?_⟩, fun i v hi hv => ?_⟩
  · by_cases hout : v ∈ a.outputs
    · exact h.new v hout
    · have hold : v ∈ g.inputs ∨ v ∈ made := by simpa [hout] using hv
      exact h.old v (fun w hw => hnext.slot_ne hg hw hold) (hf.atHand v hold hread.of_succ)
  · obtain ⟨address, b, hoperand, hslot, -⟩ := h.fed i v hi
    rw [hg.slot_input hv] at hslot
    obtain ⟨x, hx, heq⟩ := Option.map_eq_some_iff.1 hslot
    cases heq
    exact ⟨address, List.mem_of_getElem? hx, hoperand⟩

/-- The plan of an application of a scripted kind: its statements. -/
theorem Assembly.Places.steps {plan : Plan} (hplan : Places g position a plan) {s : Script}
    {statements : List Statement} (hkind : a.kind = s.toKind) (hbody : s.body = .steps statements) :
    plan.body = .steps statements := by
  have hplanBody := hplan.body
  rw [hkind] at hplanBody
  exact (Script.orReject_eq_ok hplanBody).symm.trans hbody

/-- **An application keeps what later ones need**, or leaves with all buffers owned. -/
theorem Stocked.runPlan_ends (h : Stocked g start position made f) (hg : g.WellFormed)
    (hshape : Shaped g start) (ha : g.applications[position]? = some a) (hnext : g.Next made a)
    (hnodup : a.outputs.Nodup) {plan : Plan} (hplan : Assembly.Places g position a plan)
    (ht : g.Tame position a) :
    (Frame.runPlan plan f).Ends (Stocked g start (position + 1) (made ++ a.outputs))
      (Frame.Owned start) := by
  obtain ⟨operand, operands, htaken, hfed⟩ := h.fed hnext ha
  have hsame : Frame.Same f { f with operands, results := [] } := ⟨fun _ => rfl, rfl, rfl, rfl⟩
  have h₀ := h.same hsame
  rw [Frame.runPlan, hplan.inputs, htaken, Flow.given]
  cases ht with
  | kernel k hk =>
    obtain ⟨f₁, v, hv, hdesc, hrun, hpoised, hkeeps⟩ :=
      hfed.poised h₀.owned.separate hg hnext hplan hk (fun s hs => hshape.slot? h₀.owned hs) rfl
    have h₁ := h₀.owned.keeps hpoised.slot hkeeps hpoised.separate
    rw [hrun]
    refine (hpoised.run_ends h₁ plan.context).mono ?_
    rintro f' ⟨hf', hkeeps', b, hb, hdtype, hdims⟩
    refine ⟨h₁.keeps hpoised.slot hkeeps' hf', fun w hw hread => ?_⟩
    by_cases hwv : w = v
    · subst hwv
      refine ⟨b, hb, ?_⟩
      rw [hdesc, Loaded.descOf, Buffer.rank, hdtype, hdims]
    · have hold : w ∈ g.inputs ∨ w ∈ made := by simpa [hv, hwv] using hw
      exact (h₀.atHand w hold hread.of_succ).keeps (hkeeps.trans hkeeps')
        (hnext.slot_ne hg (by simp [hv]) hold)
  | steps s statements hkind hbody hstatements hextents =>
    have hwithin : ∀ o ∈ plan.outputs, ∀ e ∈ o.extents, e.Within plan.context := by
      intro o ho e he
      obtain ⟨i, hi, hextentsOf⟩ := Assembly.extents_of_planOutputs hplan.outputs o ho
      rw [hkind] at hextentsOf
      have heq : s.extentsOf plan.context i = o.extents := Script.orReject_eq_ok hextentsOf
      rw [hplan.context] at heq ⊢
      exact hextents i (by simpa using hi) e (heq ▸ he)
    have hmade : ∀ v ∈ made ++ a.outputs, v ∈ g.produced := by
      intro v hv
      rcases List.mem_append.1 hv with hv | hv
      · exact hnext.made v hv
      · exact (hnext.makes v hv).1
    refine (prepareAll_ends hg hshape hplan.context (fun v hv => (hnext.makes v hv).1) hnodup
      (fun v hv w hw => hnext.slot_ne hg hv (hnext.reads w hw)) hplan.outputs hwithin h₀.owned
      hfed).andThen fun f₁ hlaid => ?_
    rw [hplan.steps hkind hbody]
    refine Flow.Ends.mono (Flow.Ends.foldl (hlaid.serving hg hnext h₀) fun statement hs f hf => ?_)
      fun f' hf' => hf'.stocked
    exact (hstatements statement hs).run_ends hg hshape hmade plan.context hf

/-- **All applications** run, or one of them leaves, and all buffers are owned. -/
theorem Stocked.runPlans_ends (hg : g.WellFormed) (hshape : Shaped g start)
    (htame : ∀ (i : Nat) (a : Application), g.applications[i]? = some a → g.Tame i a)
    {apps : List Application} {plans : List Plan} (hplanned : Assembly.Planned g position apps plans)
    (happs : g.applications.drop position = apps) (hordered : Graph.Ordered g.inputs made apps)
    (hnodup : (made ++ apps.flatMap (·.outputs)).Nodup)
    (hproduced : ∀ v ∈ made ++ apps.flatMap (·.outputs), v ∈ g.produced)
    (h : Stocked g start position made f) :
    (Frame.runPlans plans f).Ends (Frame.Owned start) (Frame.Owned start) := by
  induction hplanned generalizing made f with
  | nil => exact h.owned
  | @cons position a plan apps plans hplan hrest ih =>
    have ha : g.applications[position]? = some a := by
      rw [← Nat.add_zero position, ← List.getElem?_drop, happs]
      rfl
    have hdrop : g.applications.drop (position + 1) = apps := by
      rw [List.drop_add_one_eq_tail_drop, happs, List.tail_cons]
    rw [List.flatMap_cons, ← List.append_assoc] at hnodup hproduced
    have hnext := Graph.next_of_ordered hordered hnodup hproduced
    have houtputs : a.outputs.Nodup := (List.nodup_append.1 (List.nodup_append.1 hnodup).1).2.1
    rw [Frame.runPlans_cons]
    exact (h.runPlan_ends hg hshape ha hnext houtputs hplan (htame position a ha)).andThen fun f' hf' =>
      ih hdrop hordered.2 hnodup hproduced hf'

/-! ## Calls -/

theorem Statement.Tame.isPlain {statement : Statement} (ht : statement.Tame g position a)
    (p : Source.Program) : Module.isPlain p statement = true := by
  cases statement with
  | count symbol => cases ht
  | _ => rfl

/-- The computations of applications that keep to the rules of memory are run as they are. -/
theorem placedBody_of_tame {i : Nat} {plan : Plan} (hplan : Assembly.Places g i a plan)
    (ht : g.Tame position a) (p : Source.Program) (line : Nat) :
    Module.placedBody p line plan = plan.body := by
  cases ht with
  | kernel k hk => rw [Module.placedBody, (hplan.kernel hk).2.1]
  | steps s statements hkind hbody hstatements hextents =>
    have hall : statements.all (Module.isPlain p) = true :=
      List.all_eq_true.2 fun statement hs => (hstatements statement hs).isPlain p
    rw [Module.placedBody, hplan.steps hkind hbody]
    exact if_pos hall

end

namespace Loaded

variable {g : Graph} {m : Module} {l : Loaded} {inputs : List Buffer} {outputs : List (Option Buffer)}
  {f : Frame}

/-- What is handed over at the start is what the first application needs. -/
theorem stocked_opened (hg : g.WellFormed) (hm : Assembly.assemble g = .ok m) (hl : l.Runs m)
    (hargs : l.mismatch? inputs outputs = none) (hin : ∀ b ∈ inputs, b.WellFormed)
    (hout : ∀ b, some b ∈ outputs → b.WellFormed) (h : f.Hands inputs outputs) :
    Shaped g (f.opened m.code) ∧ Stocked g (f.opened m.code) 0 [] (f.opened m.code) := by
  obtain ⟨hdescs, hcount⟩ := hl.descs hm hargs
  have hinputs : f.inputs.length = inputs.length := by simpa using congrArg List.length h.inputs
  have hinputs' : inputs.length = g.inputs.length := by simpa using congrArg List.length hdescs
  have houtputs : f.outputs.length = outputs.length := by simpa using congrArg List.length h.outputs
  refine ⟨⟨hinputs.trans hinputs', houtputs.trans hcount, ?_⟩, h.owned hin hout m.code, fun v hv _ => ?_⟩
  · exact List.length_replicate.trans (tempCount_code hm)
  · have hv : v ∈ g.inputs := by simpa using hv
    have hidx := List.idxOf_lt_length_of_mem hv
    have hlt : g.inputs.idxOf v < inputs.length := hinputs' ▸ hidx
    have hltf : g.inputs.idxOf v < f.inputs.length := hinputs ▸ hlt
    refine ⟨inputs[g.inputs.idxOf v], ?_, ?_⟩
    · have hget := congrArg (·[g.inputs.idxOf v]?) h.inputs
      rw [hg.slot_input hv, Frame.buffer?]
      simpa [Frame.slot?, Frame.opened, hltf, hlt] using hget
    · have hself := List.getElem_idxOf hidx
      simpa [hlt, hidx, hself] using congrArg (·[g.inputs.idxOf v]?) hdescs

/-- A call that is handed its buffers hands them back. -/
theorem run_of_hands (hg : g.WellFormed) (hm : Assembly.assemble g = .ok m)
    (htame : ∀ (i : Nat) (a : Application), g.applications[i]? = some a → g.Tame i a) (hl : l.Runs m)
    (hargs : l.mismatch? inputs outputs = none) (hin : ∀ b ∈ inputs, b.WellFormed)
    (hout : ∀ b, some b ∈ outputs → b.WellFormed) (h : f.Hands inputs outputs) :
    ∃ f' slots, l.run f = some f' ∧ f'.inputs = f.inputs ∧ collect? f' = some slots ∧
      f'.Hands inputs slots ∧ ∀ b, some b ∈ slots → b.WellFormed := by
  obtain ⟨hshape, hstocked⟩ := stocked_opened hg hm hl hargs hin hout h
  have hplans : m.code.plans = m.plans :=
    Module.placedPlans_of_body _ _ fun plan hplan line => by
      obtain ⟨i, a, ha, hplaces⟩ := (Assembly.assemble_planned hm).exists_places plan hplan
      obtain ⟨j, hj⟩ := List.mem_iff_getElem?.1 ha
      exact placedBody_of_tame hplaces (htame j a hj) _ line
  have hrun := run_eq (f := f) hm hl hplans hshape.inputs hshape.outputs
  have hends := Stocked.runPlans_ends hg hshape htame (Assembly.assemble_planned hm) rfl hg.ordered
    hg.produced_nodup (fun v hv => hv) hstocked
  -- whether the applications have come to their end or one of them has left
  obtain ⟨f₁, hfinish, howned⟩ : ∃ f₁, Frame.finish (Frame.runPlans m.plans (f.opened m.code)) = some f₁ ∧
      Frame.Owned (f.opened m.code) f₁ := by
    cases hflow : Frame.runPlans m.plans (f.opened m.code) with
    | next f₁ => exact ⟨f₁, rfl, by rwa [hflow] at hends⟩
    | leave f₁ => exact ⟨f₁, rfl, by rwa [hflow] at hends⟩
    | broken => simp [hflow, Flow.Ends] at hends
  obtain ⟨heap, slots, hrelease, hcollect, hhands, hwell⟩ := howned.finish h.inputs
  rw [hfinish, Option.bind_some, hrelease] at hrun
  exact ⟨_, slots, hrun, howned.inputs, hcollect, hhands, hwell⟩

/-- **Every buffer is owned exactly once across a call.** A module of a graph of library kinds, and of
scripted kinds that keep to the rules of memory, is called with well-formed inputs of the right types and
ranks, and with any well-formed buffers, or none, in the output slots. Wherever the call stops, no rule of
memory has been broken, as it would be by releasing a buffer that is not live; to release an input is
refused. All that is live in the end are the inputs, which are as they were, and the buffers in the output
slots, each of which is in one slot and is none of the inputs. -/
theorem run_hands (hg : g.Finished) (hm : Assembly.assemble g = .ok m)
    (htame : ∀ (i : Nat) (a : Application), g.applications[i]? = some a → g.Tame i a) (hl : l.Runs m)
    (hargs : l.mismatch? inputs outputs = none) (hin : ∀ b ∈ inputs, b.WellFormed)
    (hout : ∀ b, some b ∈ outputs → b.WellFormed) :
    (∀ f : Frame, f.Hands inputs outputs → ∃ f' slots, l.run f = some f' ∧ f'.inputs = f.inputs ∧
      f'.Hands inputs slots ∧ (f'.inputs.dedup ++ f'.outputs.reduceOption).Nodup ∧
      ∀ b, some b ∈ slots → b.WellFormed) ∧
    (∀ statics, (frame inputs outputs statics).Hands inputs outputs ∧
      ∃ f' slots, l.run (frame inputs outputs statics) = some f' ∧ f'.Hands inputs slots ∧
        l.invoke statics inputs outputs = ⟨verdict l.key f', slots, f'.statics⟩) ∧
    ∀ (f : Frame) (address : Nat),
      (address ∈ f.inputs → f.release address = .next (f.record Frame.inputReleased)) ∧
      (address ∉ f.inputs → f.heap.get? address = none → f.release address = .broken) := by
  refine ⟨fun f hf => ?_, fun statics => ⟨hands_frame inputs outputs statics, ?_⟩,
    fun f address => ⟨fun ha => if_pos ha, fun ha hdead => ?_⟩⟩
  · obtain ⟨f', slots, hrun, hinputs, -, hhands, hwell⟩ :=
      run_of_hands hg.wellFormed hm htame hl hargs hin hout hf
    exact ⟨f', slots, hrun, hinputs, hhands, hhands.nodup, hwell⟩
  · obtain ⟨f', slots, hrun, -, hcollect, hhands, -⟩ :=
      run_of_hands hg.wellFormed hm htame hl hargs hin hout (hands_frame inputs outputs statics)
    exact ⟨f', slots, hrun, hhands, invoke_of_run hargs hrun hcollect⟩
  · simp [Frame.release, ha, Heap.release?, hdead, Flow.given]

/-- All that a statement may do with buffers. -/
def spendings : List Statement :=
  [.note [104, 105], .noteNothing, .status 3, .releaseInput 0, .releaseNothing, .allocate 5 1 [3],
    .dropOutput 0]

/-- A kind that does with buffers all that the rules of memory allow, and then fails. -/
def spending : Script where
  name := "spending"
  body := .steps (spendings ++ [.fail "spent"])

/-- Only a failure names the application. -/
theorem code_eq_of_mem_spendings {statement : Statement} (h : statement ∈ spendings) (c c' : Context) :
    statement.code c = statement.code c' := by
  cases statement with
  | fail message => simp [spendings] at h
  | _ => rfl

theorem plain_spending : spending.toKind.Plain where
  kindBlocks := by simp [Script.toKind, spending]
  appBlocks := by
    intro c blocks _ h
    cases h
    simp [spending]
  extents := by
    intro c index es h
    cases h
    exact Extent.plain_like _
  body := by
    intro c b hc h
    cases h
    show Text.Plain ("\n".intercalate ((spendings ++ [Statement.fail "spent"]).map (Statement.code c)))
    refine Text.plain_intercalate (Text.plain_ofList (by decide)) fun text htext => ?_
    obtain ⟨statement, hs, rfl⟩ := List.mem_map.1 htext
    rcases List.mem_append.1 hs with hs | hs
    · have hall : (spendings.all fun statement =>
          (statement.code ⟨"", [], []⟩).toList.all fun c => c.utf8Size == 1) = true := by decide +kernel
      rw [code_eq_of_mem_spendings hs c ⟨"", [], []⟩]
      exact ⟨fun c hc => by simpa using List.all_eq_true.1 (List.all_eq_true.1 hall _ hs) c hc⟩
    · cases List.mem_singleton.1 hs
      exact Context.plain_fail hc (Text.plain_ofList (by decide))
  initCode := by simp [Script.toKind, spending]

/-- The squares of a vector, which are temporary, and their sum. -/
def spent : Graph where
  name := "spent"
  vars := [⟨.i64, 1⟩, ⟨.i64, 1⟩, ⟨.i64, 0⟩, ⟨.i64, 1⟩]
  applications := [⟨Library.binary .mul .i64, [0, 0], [1]⟩, ⟨Library.reduceSum .i64, [1], [2]⟩,
    ⟨spending.toKind, [0, 1], [3]⟩]
  inputs := [0]
  outputs := [3, 2]

theorem finished_spent : spent.Finished := by
  have hmul : GraphBuilder.Built _ :=
    @GraphBuilder.Built.apply _ _ (Library.binary .mul .i64) [0, 0] _ [⟨.i64, 1⟩]
      (.addInput ⟨.i64, 1⟩ (.new "spent")) rfl
  have hsum : GraphBuilder.Built _ :=
    @GraphBuilder.Built.apply _ _ (Library.reduceSum .i64) [1] _ [⟨.i64, 0⟩] hmul rfl
  have hspending : GraphBuilder.Built _ :=
    @GraphBuilder.Built.apply _ _ spending.toKind [0, 1] _ [⟨.i64, 1⟩] hsum rfl
  exact ⟨_, [3, 2], hspending, rfl⟩

/-- The applications keep to the rules of memory. -/
theorem tame_spent (i : Nat) (a : Application) (ha : spent.applications[i]? = some a) : spent.Tame i a := by
  rcases i with _ | _ | _ | i
  · cases ha
    exact .kernel (.binary .mul .i64) rfl
  · cases ha
    exact .kernel (.reduceSum .i64) rfl
  · cases ha
    refine .steps spending _ rfl rfl ?_ ?_
    · simp only [spendings, List.cons_append, List.nil_append, List.forall_mem_cons, List.not_mem_nil, false_implies, implies_true, and_true,
        Statement.Tame, true_and]
      refine ⟨⟨0, by decide, rfl⟩, .inr (by decide), 3, rfl, ?_⟩
      rintro ⟨i, hi, a, ha, -⟩
      have hlt := (List.getElem?_eq_some_iff.1 ha).1
      have : i < 3 := hlt
      omega
    · rintro (_ | i) hi e he
      · cases List.mem_singleton.1 he
        exact Nat.lt_succ_self 0
      · exact absurd hi (by simp)
  · cases ha

/-- A call that fails after it has given up one of its outputs: its inputs and the other output are left. -/
theorem run_hands_spent :
    ∃ m, Assembly.assemble spent = .ok m ∧
    ∃ x y, Buffer.ofListWith .i64 [2] [(7 : Int64), -8] .columnMajor = .ok x ∧
      Buffer.ofListWith .i64 [1] [(5 : Int64)] .rowMajor = .ok y ∧
    ∃ l : Loaded, l.Runs m ∧ l.mismatch? [x] [some y, none] = none ∧
      ∃ f' slots, l.run (frame [x] [some y, none] []) = some f' ∧ f'.Hands [x] slots ∧
        l.invoke [] [x] [some y, none] = ⟨verdict l.key f', slots, f'.statics⟩ := by
  obtain ⟨m, hm⟩ : ∃ m, Assembly.assemble spent = .ok m := by
    refine Assembly.assemble_of_plain ?_ (by decide +kernel)
    simp only [spent, List.forall_mem_cons, List.not_mem_nil, false_implies, implies_true, and_true]
    exact ⟨(Kernel.binary .mul .i64).plain_kind, (Kernel.reduceSum .i64).plain_kind, plain_spending⟩
  obtain ⟨_, _, -, -, hmodule⟩ := Assembly.assemble_eq_ok hm
  obtain ⟨x, hx, hxd⟩ : ∃ x, Buffer.ofListWith .i64 [2] [(7 : Int64), -8] .columnMajor = .ok x ∧
      descOf x = ⟨.i64, 1⟩ := ⟨_, rfl, rfl⟩
  obtain ⟨y, hy⟩ : ∃ y, Buffer.ofListWith .i64 [1] [(5 : Int64)] .rowMajor = .ok y := ⟨_, rfl⟩
  let l : Loaded := ⟨.fill 0, m.inputDescs, m.outputDescs, ⟨1, "", "fusejit_entry", false, true, []⟩,
    some m.code, 0⟩
  have hl : l.Runs m := ⟨rfl, rfl, rfl⟩
  have hargs : l.mismatch? [x] [some y, none] = none := by
    have hins : l.inputs = [⟨.i64, 1⟩] := by rw [show l.inputs = m.inputDescs from rfl, hmodule]; rfl
    have houts : l.outputs = [⟨.i64, 1⟩, ⟨.i64, 0⟩] := by
      rw [show l.outputs = m.outputDescs from rfl, hmodule]; rfl
    simp [mismatch?, inputMismatch?, hins, houts, hxd]
  obtain ⟨-, hcall, -⟩ := run_hands finished_spent hm tame_spent hl hargs
    (by simp [Buffer.wellFormed_ofListWith hx]) (by simp [Buffer.wellFormed_ofListWith hy])
  obtain ⟨-, hrun⟩ := hcall []
  exact ⟨m, hm, x, y, hx, hy, l, hl, hargs, hrun⟩

end Loaded

end OpFusion
