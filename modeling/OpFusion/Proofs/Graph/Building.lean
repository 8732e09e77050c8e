/-
  Graphs that a builder makes.

  `Built b`: the builder `b` comes from an empty one by inputs and applications, in any order; a rejected
  application leaves the builder as it was. `Finished g`: the graph `g` is finished from such a builder.
  Every such graph is well-formed (`Finished.wellFormed`): each variable is one input or one result of
  one application, an application reads inputs and earlier results only, and the outputs are distinct
  results.
-/
import Mathlib
import OpFusion.Module.Slot

namespace OpFusion

/-- Applications in an order in which they can run: each reads inputs and results made before it. -/
def Graph.Ordered (inputs made : List Nat) : List Application → Prop
  | [] => True
  | a :: apps =>
    (∀ v ∈ a.inputs, v ∈ inputs ∨ v ∈ made) ∧ Graph.Ordered inputs (made ++ a.outputs) apps

namespace Graph

variable {inputs inputs' made made' : List Nat} {apps more : List Application}

theorem Ordered.mono (h : Ordered inputs made apps) (hi : ∀ v ∈ inputs, v ∈ inputs')
    (hm : ∀ v ∈ made, v ∈ made') : Ordered inputs' made' apps := by
  induction apps generalizing made made' with
  | nil => trivial
  | cons a apps ih =>
    refine ⟨fun v hv => (h.1 v hv).imp (hi v) (hm v), ih h.2 fun v hv => ?_⟩
    rcases List.mem_append.1 hv with hv | hv
    · exact List.mem_append_left _ (hm v hv)
    · exact List.mem_append_right _ hv

theorem Ordered.append (h : Ordered inputs made apps)
    (hmore : Ordered inputs (made ++ apps.flatMap (·.outputs)) more) :
    Ordered inputs made (apps ++ more) := by
  induction apps generalizing made with
  | nil => simpa using hmore
  | cons a apps ih =>
    refine ⟨h.1, ih h.2 ?_⟩
    simpa [List.append_assoc] using hmore

end Graph

namespace GraphBuilder

/-- A builder that inputs and applications lead to. -/
inductive Built : GraphBuilder → Prop
  | new (name : String) : Built { name }
  | addInput {b : GraphBuilder} (desc : VarDesc) : Built b → Built (b.addInput desc)
  | apply {b b' : GraphBuilder} {kind : OpKind} {inputs results : List Nat} {outputs : List VarDesc} :
      Built b → b.apply kind inputs outputs = .ok (results, b') → Built b'

/-- The results of all applications so far. -/
def produced (b : GraphBuilder) : List Nat := b.applications.flatMap (·.outputs)

/-- What holds of a builder at any time. -/
structure Coherent (b : GraphBuilder) : Prop where
  inputs_nodup : b.inputs.Nodup
  produced_nodup : b.produced.Nodup
  disjoint : ∀ v ∈ b.inputs, v ∉ b.produced
  defined : ∀ v, v < b.vars.length ↔ v ∈ b.inputs ∨ v ∈ b.produced
  ordered : Graph.Ordered b.inputs [] b.applications

/-- What an accepted application does. -/
theorem apply_eq_ok {b b' : GraphBuilder} {kind : OpKind} {inputs results : List Nat}
    {outputs : List VarDesc} (h : b.apply kind inputs outputs = .ok (results, b')) :
    (∀ v ∈ inputs, v < b.vars.length) ∧ results = b.results outputs ∧
      b' = { b with
        vars := b.vars ++ outputs
        applications := b.applications ++ [⟨kind, inputs, b.results outputs⟩] } := by
  unfold apply at h
  split at h
  · cases h
  · next hnone =>
    cases h
    refine ⟨fun v hv => ?_, rfl, rfl⟩
    simpa using List.find?_eq_none.1 hnone v hv

theorem mem_results {b : GraphBuilder} {outputs : List VarDesc} {v : Nat} :
    v ∈ b.results outputs ↔ b.vars.length ≤ v ∧ v < b.vars.length + outputs.length := by
  simp [results, next, List.mem_range']
  constructor
  · rintro ⟨i, hi, rfl⟩; omega
  · rintro ⟨hle, hlt⟩; exact ⟨v - b.vars.length, by omega, by omega⟩

theorem Coherent.addInput {b : GraphBuilder} (h : b.Coherent) (desc : VarDesc) :
    (b.addInput desc).Coherent := by
  have hnew : b.vars.length ∉ b.inputs ∧ b.vars.length ∉ b.produced := by
    have := h.defined b.vars.length
    refine ⟨fun hm => ?_, fun hm => ?_⟩
    · exact Nat.lt_irrefl _ (this.2 (Or.inl hm))
    · exact Nat.lt_irrefl _ (this.2 (Or.inr hm))
  refine ⟨?_, h.produced_nodup, fun v hv => ?_, fun v => ?_, ?_⟩
  · simp only [GraphBuilder.addInput, next, List.nodup_append, List.mem_singleton]
    refine ⟨h.inputs_nodup, by simp, ?_⟩
    rintro v hv w rfl rfl
    exact hnew.1 hv
  · rcases List.mem_append.1 hv with hv | hv
    · exact h.disjoint v hv
    · rw [List.mem_singleton.1 hv]; exact hnew.2
  · have hv := h.defined v
    simp only [GraphBuilder.addInput, next, List.length_append, List.length_singleton,
      List.mem_append, List.mem_singleton]
    simp only [produced] at hv ⊢
    constructor
    · intro hlt
      by_cases hold : v < b.vars.length
      · exact (hv.1 hold).imp Or.inl id
      · exact Or.inl (Or.inr (by omega))
    · rintro ((hin | rfl) | hout)
      · have := hv.2 (Or.inl hin); omega
      · omega
      · have := hv.2 (Or.inr hout); omega
  · exact h.ordered.mono (fun v hv => List.mem_append_left _ hv) fun v hv => hv

theorem Coherent.apply {b b' : GraphBuilder} {kind : OpKind} {inputs results : List Nat}
    {outputs : List VarDesc} (h : b.Coherent) (ha : b.apply kind inputs outputs = .ok (results, b')) :
    b'.Coherent := by
  obtain ⟨hin, -, rfl⟩ := apply_eq_ok ha
  have hprod : ({ b with
      vars := b.vars ++ outputs
      applications := b.applications ++ [⟨kind, inputs, b.results outputs⟩] } :
        GraphBuilder).produced = b.produced ++ b.results outputs := by
    simp [produced]
  have hfresh : ∀ v ∈ b.results outputs, v ∉ b.inputs ∧ v ∉ b.produced := by
    intro v hv
    have hle := (mem_results.1 hv).1
    refine ⟨fun hm => ?_, fun hm => ?_⟩
    · have := (h.defined v).2 (Or.inl hm); omega
    · have := (h.defined v).2 (Or.inr hm); omega
  refine ⟨h.inputs_nodup, ?_, fun v hv => ?_, fun v => ?_, ?_⟩
  · rw [hprod, List.nodup_append]
    refine ⟨h.produced_nodup, List.nodup_range', ?_⟩
    rintro v hv w hw rfl
    exact (hfresh v hw).2 hv
  · rw [hprod, List.mem_append]
    rintro (hm | hm)
    · exact h.disjoint v hv hm
    · exact (hfresh v hm).1 hv
  · have hv := h.defined v
    rw [hprod]
    simp only [List.length_append, List.mem_append, mem_results]
    constructor
    · intro hlt
      by_cases hold : v < b.vars.length
      · exact (hv.1 hold).imp id Or.inl
      · exact Or.inr (Or.inr ⟨by omega, hlt⟩)
    · rintro (hi | ho | hr)
      · have := hv.2 (Or.inl hi); omega
      · have := hv.2 (Or.inr ho); omega
      · exact hr.2
  · refine h.ordered.append ⟨fun v hv => ?_, trivial⟩
    simpa [produced] using (h.defined v).1 (hin v hv)

/-- Every builder that is reached is coherent. -/
theorem Built.coherent {b : GraphBuilder} (h : Built b) : b.Coherent := by
  induction h with
  | new name => exact ⟨.nil, .nil, by simp, by simp [produced], trivial⟩
  | addInput desc _ ih => exact ih.addInput desc
  | apply _ ha ih => exact ih.apply ha

end GraphBuilder

namespace Graph

/-- A graph that is finished from a builder. -/
def Finished (g : Graph) : Prop :=
  ∃ (b : GraphBuilder) (outputs : List Nat), b.Built ∧ b.finish outputs = .ok g

/-- Each variable is one input or one result, applications are in order, and the outputs are distinct
results. -/
structure WellFormed (g : Graph) : Prop where
  inputs_nodup : g.inputs.Nodup
  produced_nodup : g.produced.Nodup
  outputs_nodup : g.outputs.Nodup
  disjoint : ∀ v ∈ g.inputs, v ∉ g.produced
  outputs_produced : ∀ v ∈ g.outputs, v ∈ g.produced
  defined : ∀ v, v < g.vars.length ↔ v ∈ g.inputs ∨ v ∈ g.produced
  ordered : Ordered g.inputs [] g.applications

end Graph

/-- Outputs that pass their check are distinct, are made, and are no inputs. -/
theorem GraphBuilder.checkOutputs_eq_ok {b : GraphBuilder} {seen outputs : List Nat}
    (h : b.checkOutputs seen outputs = .ok ()) :
    outputs.Nodup ∧ ∀ v ∈ outputs, v < b.vars.length ∧ v ∉ b.inputs ∧ v ∉ seen := by
  induction outputs generalizing seen with
  | nil => simp
  | cons v outputs ih =>
    unfold checkOutputs at h
    split at h
    · cases h
    · split at h
      · cases h
      · split at h
        · cases h
        · next hlt hin hseen =>
          obtain ⟨hnodup, hrest⟩ := ih h
          refine ⟨List.nodup_cons.2 ⟨fun hv => ?_, hnodup⟩, fun w hw => ?_⟩
          · exact (hrest v hv).2.2 (by simp)
          · rcases List.mem_cons.1 hw with rfl | hw
            · exact ⟨by omega, hin, hseen⟩
            · obtain ⟨h1, h2, h3⟩ := hrest w hw
              exact ⟨h1, h2, fun hs => h3 (by simp [hs])⟩

/-- **A finished graph is well-formed.** -/
theorem Graph.Finished.wellFormed {g : Graph} (h : g.Finished) : g.WellFormed := by
  obtain ⟨b, outputs, hb, hfinish⟩ := h
  have hc := hb.coherent
  unfold GraphBuilder.finish at hfinish
  split at hfinish
  · cases hfinish
  · next hcheck =>
    obtain ⟨hnodup, hout⟩ := GraphBuilder.checkOutputs_eq_ok hcheck
    cases hfinish
    refine ⟨hc.inputs_nodup, hc.produced_nodup, hnodup, hc.disjoint, fun v hv => ?_, hc.defined,
      hc.ordered⟩
    obtain ⟨hlt, hin, -⟩ := hout v hv
    exact ((hc.defined v).1 hlt).resolve_left hin

end OpFusion
