/-
  Slots of a finished graph.

  The passes that give out slots leave one entry for each variable, its slot (`slotTable_perm`), although
  a later pass may replace what an earlier one gave out. The slots of the variables are exactly those that
  a call has, and they follow the flow of data: an application writes slots that nothing else writes, and
  reads slots that are written before. This is `slotted_of_calls`, for the graph and for its module.
-/
import OpFusion.Proofs.Graph.Calls
import OpFusion.Proofs.Graph.Slots
import OpFusion.Proofs.Module.Plans

namespace OpFusion

/-! ## Tables -/

namespace Table

variable {K V : Type} [DecidableEq K]

theorem nodup_insert {t : List (K × V)} (h : (t.map (·.1)).Nodup) (k : K) (v : V) :
    ((insert t k v).map (·.1)).Nodup := by
  rw [insert, List.map_cons, List.nodup_cons]
  refine ⟨?_, h.sublist (List.filter_sublist.map _)⟩
  simp [erase]

/-- In a table with one pair for each key, the value of a key is that of its pair. -/
theorem mem_iff_lookup {t : List (K × V)} (h : (t.map (·.1)).Nodup) (k : K) (v : V) :
    (k, v) ∈ t ↔ t.lookup k = some v := by
  induction t with
  | nil => simp
  | cons p t ih =>
    obtain ⟨j, w⟩ := p
    obtain ⟨hj, ht⟩ := List.nodup_cons.1 h
    rw [lookup_pair, List.mem_cons, Prod.mk.injEq]
    by_cases hk : k = j
    · subst hk
      have hnone : (k, v) ∉ t := fun hm => hj (List.mem_map.2 ⟨_, hm, rfl⟩)
      simp [hnone, eq_comm]
    · simp [hk, ih ht]

end Table

namespace SlotTable

variable {vars : List Nat}

theorem nodup_assign (sort : Nat → Slot) (index : Nat) {t : SlotTable} (h : (t.map (·.1)).Nodup) :
    ((t.assign sort index vars).map (·.1)).Nodup := by
  induction vars generalizing index t with
  | nil => exact h
  | cons var vars ih => exact ih _ (Table.nodup_insert h _ _)

theorem nodup_assignTemps (index : Nat) {t : SlotTable} (h : (t.map (·.1)).Nodup) :
    ((t.assignTemps index vars).map (·.1)).Nodup := by
  induction vars generalizing index t with
  | nil => exact h
  | cons var vars ih =>
    rw [assignTemps]
    split
    · exact ih _ h
    · exact ih _ (Table.nodup_insert h _ _)

/-- A pass that replaces: the variables have the slots of their positions, and all others have what they
had. -/
theorem lookup_assign (sort : Nat → Slot) (index : Nat) (t : SlotTable) (hvars : vars.Nodup) (v : Nat) :
    (t.assign sort index vars).lookup v =
      if v ∈ vars then some (sort (index + vars.idxOf v)) else t.lookup v := by
  induction vars generalizing index t with
  | nil => simp [assign]
  | cons var vars ih =>
    obtain ⟨hvar, hrest⟩ := List.nodup_cons.1 hvars
    rw [assign, ih _ _ hrest, Table.lookup_insert]
    by_cases hv : v = var
    · simp [hv, hvar]
    · have hidx : (var :: vars).idxOf v = vars.idxOf v + 1 := List.idxOf_cons_ne _ (Ne.symm hv)
      simp only [List.mem_cons, hv, false_or, if_false, hidx]
      rw [Nat.add_assoc, Nat.add_comm 1]

/-- A pass that does not replace: a variable keeps its slot, and the others among the variables have
temporary slots in order. -/
theorem lookup_assignTemps (index : Nat) (t : SlotTable) (hvars : vars.Nodup) (v : Nat) :
    (t.assignTemps index vars).lookup v = (t.lookup v).or
      (if v ∈ vars then
        some (.temp (index + (vars.filter fun w => (t.lookup w).isNone).idxOf v)) else none) := by
  induction vars generalizing index t with
  | nil => simp [assignTemps]
  | cons var vars ih =>
    obtain ⟨hvar, hrest⟩ := List.nodup_cons.1 hvars
    rw [assignTemps]
    cases hslot : t.lookup var with
    | some s =>
      rw [Option.isSome_some, if_pos rfl, ih _ _ hrest]
      by_cases hv : v = var
      · simp [hv, hslot]
      · simp [hv, hslot]
    | none =>
      -- what is given to `var` does not matter to the others, which are all different from it
      have hfilter : (vars.filter fun w => ((Table.insert t var (.temp index)).lookup w).isNone) =
          vars.filter fun w => (t.lookup w).isNone := by
        refine List.filter_congr fun w hw => ?_
        have hne : w ≠ var := fun h => hvar (h ▸ hw)
        simp [hne]
      rw [Option.isSome_none, if_neg (by simp), ih _ _ hrest, hfilter, Table.lookup_insert]
      by_cases hv : v = var
      · simp [hv, hslot]
      · have hidx : ((var :: vars).filter fun w => (t.lookup w).isNone).idxOf v =
            (vars.filter fun w => (t.lookup w).isNone).idxOf v + 1 := by
          rw [List.filter_cons_of_pos (by simp [hslot])]
          exact List.idxOf_cons_ne _ (Ne.symm hv)
        simp only [List.mem_cons, hv, false_or, if_false, hidx]
        rw [Nat.add_assoc, Nat.add_comm 1]

end SlotTable

namespace Graph

variable {g : Graph}

/-! ## Slots of variables -/

/-- Distinct variables with the slots of their positions have the slots of one sort in order. -/
theorem map_slot_eq {vars : List Nat} (hvars : vars.Nodup) {sort : Nat → Slot}
    (h : ∀ v ∈ vars, g.slot v = sort (vars.idxOf v)) :
    vars.map g.slot = (List.range vars.length).map sort := by
  refine List.ext_getElem (by simp) fun i hi _ => ?_
  rw [List.length_map] at hi
  rw [List.getElem_map, List.getElem_map, List.getElem_range, h _ (List.getElem_mem hi),
    hvars.idxOf_getElem]

namespace WellFormed

theorem mem_temporaries (hg : g.WellFormed) (v : Nat) :
    v ∈ g.temporaries ↔ v < g.vars.length ∧ v ∉ g.inputs ∧ v ∉ g.outputs := by
  simp only [temporaries, List.mem_filter, Bool.and_eq_true, Bool.not_eq_true', List.contains_eq_mem,
    decide_eq_false_iff_not, hg.defined v]
  constructor
  · rintro ⟨hmade, hin, hout⟩
    exact ⟨.inr hmade, hin, hout⟩
  · rintro ⟨hmade, hin, hout⟩
    exact ⟨hmade.resolve_left hin, hin, hout⟩

theorem temporaries_nodup (hg : g.WellFormed) : g.temporaries.Nodup := hg.produced_nodup.filter _

theorem map_slot_inputs (hg : g.WellFormed) :
    g.inputs.map g.slot = (List.range g.inputs.length).map .input :=
  map_slot_eq hg.inputs_nodup fun _ hv => hg.slot_input hv

theorem map_slot_outputs (hg : g.WellFormed) :
    g.outputs.map g.slot = (List.range g.outputs.length).map .output :=
  map_slot_eq hg.outputs_nodup fun _ hv => slot_output hv

theorem map_slot_temporaries (hg : g.WellFormed) :
    g.temporaries.map g.slot = (List.range g.tempCount).map .temp := by
  refine map_slot_eq hg.temporaries_nodup fun v hv => ?_
  obtain ⟨hlt, hin, hout⟩ := (hg.mem_temporaries v).1 hv
  exact (hg.slot_temp (((hg.defined v).1 hlt).resolve_left hin) hout).2

/-- The passes give each variable its slot, and nothing else one. -/
theorem lookup_slotTable (hg : g.WellFormed) (v : Nat) :
    g.slotTable.lookup v = if v < g.vars.length then some (g.slot v) else none := by
  have htwo : ∀ w, ((SlotTable.assign .input 0 [] g.inputs).assign .output 0 g.outputs).lookup w =
      if w ∈ g.outputs then some (.output (g.outputs.idxOf w))
      else if w ∈ g.inputs then some (.input (g.inputs.idxOf w)) else none := by
    intro w
    rw [SlotTable.lookup_assign _ _ _ hg.outputs_nodup, SlotTable.lookup_assign _ _ _ hg.inputs_nodup,
      Nat.zero_add, Nat.zero_add, List.lookup_nil]
  have hleft : (g.produced.filter fun w =>
      (((SlotTable.assign .input 0 [] g.inputs).assign .output 0 g.outputs).lookup w).isNone) =
      g.temporaries := by
    refine List.filter_congr fun w _ => ?_
    rw [htwo]
    by_cases hout : w ∈ g.outputs <;> by_cases hin : w ∈ g.inputs <;> simp [hout, hin]
  rw [slotTable, SlotTable.lookup_assignTemps _ _ hg.produced_nodup, hleft, htwo, Nat.zero_add]
  by_cases hout : v ∈ g.outputs
  · have hlt := (hg.defined v).2 (.inr (hg.outputs_produced v hout))
    simp [hout, hlt, slot_output hout]
  · by_cases hin : v ∈ g.inputs
    · have hlt := (hg.defined v).2 (.inl hin)
      simp [hout, hin, hlt, hg.slot_input hin]
    · by_cases hmade : v ∈ g.produced
      · have hlt := (hg.defined v).2 (.inr hmade)
        simp [hout, hin, hmade, hlt, (hg.slot_temp hmade hout).2]
      · have hlt : ¬ v < g.vars.length := fun hlt => ((hg.defined v).1 hlt).elim hin hmade
        simp [hout, hin, hmade, hlt]

/-- **The table of slots has one entry for each variable.** -/
theorem slotTable_perm (hg : g.WellFormed) :
    g.slotTable.Perm ((List.range g.vars.length).map fun v => (v, g.slot v)) := by
  have hkeys : (g.slotTable.map (·.1)).Nodup :=
    SlotTable.nodup_assignTemps _ (SlotTable.nodup_assign _ _ (SlotTable.nodup_assign _ _ List.nodup_nil))
  refine (List.perm_ext_iff_of_nodup (List.Nodup.of_map _ hkeys) ?_).2 ?_
  · refine List.Nodup.map (fun v w h => ?_) List.nodup_range
    exact (Prod.mk.inj h).1
  · rintro ⟨v, s⟩
    rw [Table.mem_iff_lookup hkeys, hg.lookup_slotTable]
    simp only [List.mem_map, List.mem_range, Prod.mk.injEq]
    constructor
    · intro h
      split at h
      · next hlt => exact ⟨v, hlt, rfl, Option.some.inj h⟩
      · cases h
    · rintro ⟨w, hlt, rfl, rfl⟩
      rw [if_pos hlt]

/-- A variable has a temporary slot if and only if it is a temporary. -/
theorem slot_temp_iff (hg : g.WellFormed) {v : Nat} (hv : v < g.vars.length) :
    (∃ i, g.slot v = .temp i) ↔ v ∈ g.temporaries := by
  rw [hg.mem_temporaries]
  constructor
  · rintro ⟨i, hi⟩
    refine ⟨hv, fun hin => ?_, fun hout => ?_⟩
    · rw [hg.slot_input hin] at hi
      cases hi
    · rw [slot_output hout] at hi
      cases hi
  · rintro ⟨-, hin, hout⟩
    exact ⟨_, (hg.slot_temp (((hg.defined v).1 hv).resolve_left hin) hout).2⟩

/-- As many temporary slots are given out as there are temporaries. -/
theorem tempCount_slotTable (hg : g.WellFormed) : g.slotTable.tempCount = g.tempCount := by
  rw [SlotTable.tempCount, hg.slotTable_perm.countP_eq, List.countP_map, List.countP_eq_length_filter]
  refine ((List.perm_ext_iff_of_nodup (List.nodup_range.filter _) hg.temporaries_nodup).2
    fun v => ?_).length_eq
  rw [List.mem_filter, List.mem_range]
  constructor
  · rintro ⟨hv, htemp⟩
    rw [← hg.slot_temp_iff hv]
    cases hs : g.slot v with
    | temp i => exact ⟨i, rfl⟩
    | input i => simp [hs] at htemp
    | output i => simp [hs] at htemp
  · intro hv
    have hlt := ((hg.mem_temporaries v).1 hv).1
    obtain ⟨i, hi⟩ := (hg.slot_temp_iff hlt).2 hv
    exact ⟨hlt, by simp [hi]⟩

/-- **The slots of the variables are the slots of a call,** one for one. -/
theorem slot_bijOn (hg : g.WellFormed) :
    Set.BijOn g.slot {v | v < g.vars.length} {s | g.HasSlot s} := by
  refine ⟨fun v hv => hg.hasSlot ((hg.defined v).1 hv), fun v hv w hw h => ?_, fun s hs => ?_⟩
  · exact hg.slot_inj ((hg.defined v).1 hv) ((hg.defined w).1 hw) h
  · have hfound : ∀ {vars : List Nat} {sort : Nat → Slot} {i : Nat},
        vars.map g.slot = (List.range vars.length).map sort → i < vars.length →
        (∀ v ∈ vars, v < g.vars.length) → sort i ∈ g.slot '' {v | v < g.vars.length} := by
      intro vars sort i hmap hi hvars
      have hmem : sort i ∈ vars.map g.slot := by
        rw [hmap]
        exact List.mem_map_of_mem (List.mem_range.2 hi)
      obtain ⟨v, hv, hslot⟩ := List.mem_map.1 hmem
      exact ⟨v, hvars v hv, hslot⟩
    cases s with
    | input i => exact hfound hg.map_slot_inputs hs fun v hv => (hg.defined v).2 (.inl hv)
    | output i =>
      exact hfound hg.map_slot_outputs hs fun v hv => (hg.defined v).2 (.inr (hg.outputs_produced v hv))
    | temp i => exact hfound hg.map_slot_temporaries hs fun v hv => ((hg.mem_temporaries v).1 hv).1

end WellFormed

/-- Every variable has a slot of its own: inputs and outputs those of their positions, all others temporary
ones. -/
structure Slotted (g : Graph) : Prop where
  /-- The passes leave one entry for each variable. -/
  table : g.slotTable.Perm ((List.range g.vars.length).map fun v => (v, g.slot v))
  /-- No two variables share a slot, and no slot of a call is left over. -/
  bijOn : Set.BijOn g.slot {v | v < g.vars.length} {s | g.HasSlot s}
  inputs : g.inputs.map g.slot = (List.range g.inputs.length).map .input
  outputs : g.outputs.map g.slot = (List.range g.outputs.length).map .output
  /-- All other variables are temporaries, in the order in which they are made. -/
  mem_temporaries : ∀ v, v ∈ g.temporaries ↔ v < g.vars.length ∧ v ∉ g.inputs ∧ v ∉ g.outputs
  temporaries_made : g.temporaries.Sublist g.produced
  temporaries : g.temporaries.map g.slot = (List.range g.tempCount).map .temp
  tempCount : g.slotTable.tempCount = g.tempCount

theorem WellFormed.slotted (hg : g.WellFormed) : g.Slotted where
  table := hg.slotTable_perm
  bijOn := hg.slot_bijOn
  inputs := hg.map_slot_inputs
  outputs := hg.map_slot_outputs
  mem_temporaries := hg.mem_temporaries
  temporaries_made := List.filter_sublist
  temporaries := hg.map_slot_temporaries
  tempCount := hg.tempCount_slotTable

/-! ## The flow of data -/

/-- What is read and written in turn, slot by slot. -/
abbrev SlotFlow : Type := List (List Slot × List Slot)

/-- What the applications of a graph read and write. -/
def slotFlow (g : Graph) : SlotFlow :=
  g.applications.map fun a => (a.inputs.map g.slot, a.outputs.map g.slot)

/-- Data flows through slots: those of inputs are never written, all others are written once, and before
they are read. -/
structure SlotFlow.Sound (flow : SlotFlow) : Prop where
  inputs_kept : ∀ step ∈ flow, ∀ index, .input index ∉ step.2
  written_once : (flow.flatMap (·.2)).Nodup
  read_written : ∀ (i : Nat) (step : List Slot × List Slot), flow[i]? = some step → ∀ s ∈ step.1,
    (∃ index, s = .input index) ∨
      ∃ j < i, ∃ earlier : List Slot × List Slot, flow[j]? = some earlier ∧ s ∈ earlier.2

theorem WellFormed.slotFlow_sound (hg : g.WellFormed) : g.slotFlow.Sound where
  inputs_kept := by
    intro step hstep index hs
    obtain ⟨a, ha, rfl⟩ := List.mem_map.1 hstep
    obtain ⟨v, hv, hslot⟩ := List.mem_map.1 hs
    exact hg.slot_ne_input (List.mem_flatMap.2 ⟨a, ha, hv⟩) index hslot
  written_once := by
    have hall : g.slotFlow.flatMap (·.2) = g.produced.map g.slot := by
      simp [slotFlow, produced, List.flatMap_map, List.map_flatMap]
    rw [hall]
    refine hg.produced_nodup.map_on fun v hv w hw h => ?_
    exact hg.slot_inj (.inr hv) (.inr hw) h
  read_written := by
    intro i step hstep s hs
    obtain ⟨a, ha, rfl⟩ := Option.map_eq_some_iff.1 (List.getElem?_map.symm.trans hstep)
    obtain ⟨v, hv, rfl⟩ := List.mem_map.1 hs
    rcases hg.ordered.earlier ha hv with hin | hmade | ⟨j, hj, earlier, hearlier, hout⟩
    · exact .inl ⟨_, hg.slot_input hin⟩
    · simp at hmade
    · refine .inr ⟨j, hj, (earlier.inputs.map g.slot, earlier.outputs.map g.slot), ?_,
        List.mem_map_of_mem hout⟩
      rw [slotFlow, List.getElem?_map, hearlier, Option.map_some]

end Graph

/-! ## Modules -/

/-- The slots that the code of an application reads and writes. -/
def Plan.slots (p : Plan) : List Slot × List Slot := (p.inputs, p.outputs.map (·.slot))

namespace Assembly

variable {g : Graph} {a : Application}

theorem slots_of_planOutputs {c : Context} {index : Nat} {vars : List Nat} {outputs : List OutputPlan}
    (h : planOutputs g a c index vars = .ok outputs) : outputs.map (·.slot) = vars.map g.slot := by
  induction vars generalizing index outputs with
  | nil =>
    cases h
    rfl
  | cons var vars ih =>
    obtain ⟨o, ho, h⟩ := Outcome.bind_eq_ok.1 h
    obtain ⟨rest, hrest, h⟩ := Outcome.bind_eq_ok.1 h
    cases h
    obtain ⟨extents, -, -, rfl⟩ := planOutput_eq_ok ho
    rw [List.map_cons, List.map_cons, ih hrest]

theorem Planned.map_slots {position : Nat} {apps : List Application} {plans : List Plan}
    (h : Planned g position apps plans) :
    plans.map Plan.slots = apps.map fun a => (a.inputs.map g.slot, a.outputs.map g.slot) := by
  induction h with
  | nil => rfl
  | cons hplan _ ih =>
    rw [List.map_cons, List.map_cons, ih, Plan.slots, hplan.inputs, slots_of_planOutputs hplan.outputs]

end Assembly

/-- **Slots are given out one for one and follow the flow of data.** In a graph that is finished after any
calls of a builder every variable has a slot of its own, no application writes a slot of an input or one
that is written elsewhere, and each reads slots of inputs and slots that earlier ones have written. The
code of its module reads and writes these slots, and has room for as many temporaries as are given out. -/
theorem GraphBuilder.slotted_of_calls (name : String) (calls : List Call) (outputs : List Nat) (g : Graph)
    (h : (({ name } : GraphBuilder).after calls).finish outputs = .ok g) :
    g.Slotted ∧ g.slotFlow.Sound ∧
      ∀ m, Assembly.assemble g = .ok m →
        m.plans.map Plan.slots = g.slotFlow ∧ m.tempCount = g.slotTable.tempCount := by
  have hg : g.WellFormed := Graph.Finished.wellFormed ⟨_, outputs, (Built.new name).after calls, h⟩
  refine ⟨hg.slotted, hg.slotFlow_sound, fun m hm => ⟨(Assembly.assemble_planned hm).map_slots, ?_⟩⟩
  obtain ⟨p, q, -, -, rfl⟩ := Assembly.assemble_eq_ok hm
  exact hg.tempCount_slotTable.symm

/-- Two inputs with an application that is refused and one that is not between them, and two more
applications. -/
def GraphBuilder.woven : List Call :=
  [.addInput ⟨.i32, 1⟩, .apply (Library.binary .add .i32) [0, 1] [⟨.i32, 1⟩],
    .applySingle (Library.binary .mul .i32) [0, 0] ⟨.i32, 1⟩, .addInput ⟨.i32, 1⟩,
    .applySingle (Library.binary .sub .i32) [1, 2] ⟨.i32, 1⟩,
    .apply (Library.reduceSum .i32) [3] [⟨.i32, 0⟩]]

/-- Of its three results the second is a temporary, and the others are outputs. -/
theorem GraphBuilder.slotted_woven :
    ∃ g, (({ name := "woven" } : GraphBuilder).after woven).finish [4, 1] = .ok g ∧ g.Slotted ∧
      g.slotFlow = [([.input 0, .input 0], [.output 1]), ([.output 1, .input 1], [.temp 0]),
        ([.temp 0], [.output 0])] ∧ g.slotFlow.Sound := by
  obtain ⟨hslotted, hsound, -⟩ := slotted_of_calls "woven" woven [4, 1] _ rfl
  exact ⟨_, rfl, hslotted, by decide, hsound⟩

end OpFusion
