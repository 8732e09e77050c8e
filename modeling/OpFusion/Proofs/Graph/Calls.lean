/-
  What calls of a builder lead to.

  A call does what the builder's own operations do (`call_apply`, `call_applySingle`), so the builder is
  `Built` after any calls (`Built.after`), and a call that fails leaves it as it was (`call_of_error`). A
  graph that is finished from it is `Wired`: each variable is made in one place, and an application reads
  only what is made before it. This is `wired_of_calls`, which also says when a builder is not finished.
-/
import OpFusion.Graph.Calls
import OpFusion.Kind.Library
import OpFusion.Proofs.Graph.Building

namespace OpFusion

namespace GraphBuilder

variable {b : GraphBuilder}

/-! ## The operations as actions -/

namespace Action

variable {α β : Type}

/-- Of two things in a row, the second is done if the first one does not fail. -/
theorem on_bind (x : Action α) (f : α → Action β) (b : GraphBuilder) :
    (x >>= f).on b = match x.on b with
      | (.ok a, b') => (f a).on b'
      | (.error fault, b') => (.error fault, b') := by
  have hbind : (x >>= f).on b =
      (match x.on b with | (a, b') => (ExceptT.bindCont f a : StateM GraphBuilder _) b') := rfl
  rw [hbind]
  rcases x.on b with ⟨a | fault, b'⟩ <;> rfl

@[simp] theorem on_pure (a : α) (b : GraphBuilder) : (pure a : Action α).on b = (.ok a, b) := rfl

theorem on_makeVar (desc : VarDesc) (b : GraphBuilder) :
    (makeVar desc).on b = (.ok b.next, { b with vars := b.vars ++ [desc] }) := rfl

theorem on_checkVar (kind : OpKind) (var : Nat) (b : GraphBuilder) :
    (checkVar kind var).on b =
      if b.vars.length ≤ var then (.error (.unknownVariable kind.name var), b) else (.ok (), b) := by
  rw [checkVar, on_bind]
  change (if b.vars.length ≤ var then _ else _ : Action Unit).on b = _
  split <;> rfl

/-- The variables are checked in order, and the first one that has not been made is reported. -/
theorem on_checkVars (kind : OpKind) (inputs : List Nat) (b : GraphBuilder) :
    (forM inputs (checkVar kind)).on b =
      match inputs.find? (b.vars.length ≤ ·) with
      | some var => (.error (.unknownVariable kind.name var), b)
      | none => (.ok (), b) := by
  induction inputs with
  | nil => rfl
  | cons var inputs ih =>
    rw [List.forM_cons, on_bind, on_checkVar]
    by_cases hvar : b.vars.length ≤ var
    · simp [hvar]
    · simp [hvar, ih]

theorem on_makeVars (outputs : List VarDesc) (b : GraphBuilder) :
    (outputs.mapM makeVar).on b =
      (.ok (b.results outputs), { b with vars := b.vars ++ outputs }) := by
  induction outputs generalizing b with
  | nil => simp [results]
  | cons desc outputs ih =>
    rw [List.mapM_cons, on_bind, on_makeVar]
    dsimp only
    rw [on_bind, ih]
    simp [results, next, List.range'_succ]

theorem on_apply (kind : OpKind) (inputs : List Nat) (outputs : List VarDesc) (b : GraphBuilder) :
    (Action.apply kind inputs outputs).on b =
      match b.apply kind inputs outputs with
      | .error fault => (.error fault, b)
      | .ok (results, b') => (.ok results, b') := by
  rw [Action.apply, GraphBuilder.apply, List.forM_eq_forM, on_bind, on_checkVars]
  cases inputs.find? (b.vars.length ≤ ·) with
  | some var => rfl
  | none =>
    dsimp only
    rw [on_bind, on_makeVars]
    rfl

end Action

theorem call_apply (b : GraphBuilder) (kind : OpKind) (inputs : List Nat) (outputs : List VarDesc) :
    b.call (.apply kind inputs outputs) =
      match b.apply kind inputs outputs with
      | .error fault => (.error fault, b)
      | .ok (results, b') => (.ok results, b') := Action.on_apply kind inputs outputs b

/-- An application with one result is an application. -/
theorem call_applySingle (b : GraphBuilder) (kind : OpKind) (inputs : List Nat) (output : VarDesc) :
    b.call (.applySingle kind inputs output) = b.call (.apply kind inputs [output]) := by
  rw [call_apply, call, Call.act, ← bind_pure_comp, Action.on_bind, Action.applySingle, Action.on_bind,
    Action.on_apply, GraphBuilder.apply]
  cases inputs.find? (b.vars.length ≤ ·) <;> rfl

/-- The variables that a call reads. -/
def Call.reads : Call → List Nat
  | .addInput _ => []
  | .apply _ inputs _ | .applySingle _ inputs _ => inputs

/-- What a call can do: it makes an input, or it is refused or accepted as an application. -/
theorem call_cases (b : GraphBuilder) (c : Call) :
    (∃ desc, b.call c = (.ok [b.next], b.addInput desc) ∧ c.reads = []) ∨
    (∃ fault, b.call c = (.error fault, b) ∧ ∃ v ∈ c.reads, b.vars.length ≤ v) ∨
    ∃ kind outputs results b', b.call c = (.ok results, b') ∧
      b.apply kind c.reads outputs = .ok (results, b') := by
  have happly : ∀ kind inputs outputs,
      (∃ fault, b.call (.apply kind inputs outputs) = (.error fault, b) ∧
        ∃ v ∈ inputs, b.vars.length ≤ v) ∨
      ∃ results b', b.call (.apply kind inputs outputs) = (.ok results, b') ∧
        b.apply kind inputs outputs = .ok (results, b') := by
    intro kind inputs outputs
    rw [call_apply, GraphBuilder.apply]
    cases hfind : inputs.find? (b.vars.length ≤ ·) with
    | some var =>
      exact .inl ⟨_, rfl, var, List.mem_of_find?_eq_some hfind, by simpa using List.find?_some hfind⟩
    | none => exact .inr ⟨_, _, rfl, rfl⟩
  cases c with
  | addInput desc => exact .inl ⟨desc, rfl, rfl⟩
  | apply kind inputs outputs =>
    rcases happly kind inputs outputs with hrefused | ⟨results, b', hcall, hb'⟩
    · exact .inr (.inl hrefused)
    · exact .inr (.inr ⟨kind, outputs, results, b', hcall, hb'⟩)
  | applySingle kind inputs output =>
    rw [call_applySingle]
    rcases happly kind inputs [output] with hrefused | ⟨results, b', hcall, hb'⟩
    · exact .inr (.inl hrefused)
    · exact .inr (.inr ⟨kind, [output], results, b', hcall, hb'⟩)

/-- A call fails if and only if it reads what has not been made. -/
theorem call_eq_error_iff (b : GraphBuilder) (c : Call) :
    (∃ fault, (b.call c).1 = .error fault) ↔ ∃ v ∈ c.reads, b.vars.length ≤ v := by
  rcases call_cases b c with ⟨desc, hcall, hreads⟩ | ⟨fault, hcall, hunknown⟩ |
    ⟨kind, outputs, results, b', hcall, happly⟩
  · simp [hcall, hreads]
  · exact iff_of_true ⟨fault, by rw [hcall]⟩ hunknown
  · refine iff_of_false (by simp [hcall]) ?_
    rintro ⟨v, hv, hle⟩
    exact absurd ((apply_eq_ok happly).1 v hv) (by omega)

/-- A call that fails changes nothing. -/
theorem call_of_error {c : Call} {fault : Graph.Fault} (h : (b.call c).1 = .error fault) :
    (b.call c).2 = b := by
  rcases call_cases b c with ⟨desc, hcall, -⟩ | ⟨fault, hcall, -⟩ | ⟨kind, outputs, results, b', hcall, -⟩
  · simp [hcall] at h
  · rw [hcall]
  · simp [hcall] at h

theorem Built.call (h : Built b) (c : Call) : Built (b.call c).2 := by
  rcases call_cases b c with ⟨desc, hcall, -⟩ | ⟨fault, hcall, -⟩ |
    ⟨kind, outputs, results, b', hcall, happly⟩
  · rw [hcall]
    exact h.addInput desc
  · rwa [hcall]
  · rw [hcall]
    exact h.apply happly

/-- Whatever calls there are, the builder after them comes from inputs and applications. -/
theorem Built.after (h : Built b) (calls : List Call) : Built (b.after calls) := by
  induction calls generalizing b with
  | nil => exact h
  | cons c calls ih => exact ih (h.call c)

/-! ## Finished graphs -/

/-- An application's results are numbered after all that it reads. -/
theorem Built.rising (h : Built b) : ∀ a ∈ b.applications, ∀ v ∈ a.inputs, ∀ w ∈ a.outputs, v < w := by
  induction h with
  | new name => simp
  | addInput desc _ ih => exact ih
  | apply _ happly ih =>
    obtain ⟨hreads, -, rfl⟩ := apply_eq_ok happly
    intro a ha v hv w hw
    rcases List.mem_append.1 ha with ha | ha
    · exact ih a ha v hv w hw
    · obtain rfl := List.mem_singleton.1 ha
      have hlt := hreads v hv
      have hle := (mem_results.1 hw).1
      omega

/-- The check of outputs fails if and only if one of them has not been made, is an input or is named
before. -/
theorem checkOutputs_eq_error_iff {seen outputs : List Nat} (hseen : seen.Nodup) :
    (∃ fault, b.checkOutputs seen outputs = .error fault) ↔
      (∃ v ∈ outputs, b.vars.length ≤ v) ∨ (∃ v ∈ outputs, v ∈ b.inputs) ∨ ¬ (outputs ++ seen).Nodup := by
  induction outputs generalizing seen with
  | nil => simp [checkOutputs, hseen]
  | cons v outputs ih =>
    unfold checkOutputs
    split
    · next hle => exact iff_of_true ⟨_, rfl⟩ (.inl ⟨v, by simp, hle⟩)
    split
    · next hin => exact iff_of_true ⟨_, rfl⟩ (.inr (.inl ⟨v, by simp, hin⟩))
    split
    · next hmem => exact iff_of_true ⟨_, rfl⟩ (.inr (.inr (by simp [hmem])))
    · next hlt hin hnew =>
      rw [ih (List.nodup_cons.2 ⟨hnew, hseen⟩), List.perm_middle.nodup_iff]
      simp [hlt, hin]

theorem finish_eq_error_iff (b : GraphBuilder) (outputs : List Nat) :
    (∃ fault, b.finish outputs = .error fault) ↔
      (∃ v ∈ outputs, b.vars.length ≤ v) ∨ (∃ v ∈ outputs, v ∈ b.inputs) ∨ ¬ outputs.Nodup := by
  have hcheck := @checkOutputs_eq_error_iff b [] outputs List.nodup_nil
  rw [List.append_nil] at hcheck
  rw [← hcheck, finish]
  cases b.checkOutputs [] outputs <;> simp

end GraphBuilder

namespace Graph

/-- What a graph is made of hangs together: each variable is made once, by the time it is read. -/
structure Wired (g : Graph) : Prop where
  /-- A variable is one input, or one result of one application. -/
  made_once : ∀ v < g.vars.length,
    (g.inputs.count v = 1 ∧ g.produced.count v = 0) ∨ (g.inputs.count v = 0 ∧ g.produced.count v = 1)
  /-- Only variables are inputs or results. -/
  made_lt : ∀ v, v ∈ g.inputs ∨ v ∈ g.produced → v < g.vars.length
  /-- What an application reads is numbered before each of its results, and is an input or a result of an
  earlier application. -/
  reads_made : ∀ (i : Nat) (a : Application), g.applications[i]? = some a → ∀ v ∈ a.inputs,
    (∀ w ∈ a.outputs, v < w) ∧
    (v ∈ g.inputs ∨
      ∃ j < i, ∃ earlier : Application, g.applications[j]? = some earlier ∧ v ∈ earlier.outputs)
  inputs_nodup : g.inputs.Nodup
  outputs_nodup : g.outputs.Nodup
  outputs_made : ∀ v ∈ g.outputs, v ∈ g.produced ∧ v ∉ g.inputs

/-- What an application reads is an input or has been made before it. -/
theorem Ordered.earlier {inputs made : List Nat} {apps : List Application} (h : Ordered inputs made apps)
    {i : Nat} {a : Application} (ha : apps[i]? = some a) {v : Nat} (hv : v ∈ a.inputs) :
    v ∈ inputs ∨ v ∈ made ∨
      ∃ j < i, ∃ earlier : Application, apps[j]? = some earlier ∧ v ∈ earlier.outputs := by
  induction apps generalizing made i with
  | nil => simp at ha
  | cons first apps ih =>
    cases i with
    | zero =>
      obtain rfl : first = a := by simpa using ha
      exact (h.1 v hv).imp_right .inl
    | succ i =>
      rcases ih h.2 ha with hin | hmade | ⟨j, hj, earlier, hearlier, hout⟩
      · exact .inl hin
      · rcases List.mem_append.1 hmade with hmade | hmade
        · exact .inr (.inl hmade)
        · exact .inr (.inr ⟨0, by omega, first, rfl, hmade⟩)
      · exact .inr (.inr ⟨j + 1, by omega, earlier, hearlier, hout⟩)

theorem WellFormed.wired {g : Graph} (h : g.WellFormed)
    (hrising : ∀ a ∈ g.applications, ∀ v ∈ a.inputs, ∀ w ∈ a.outputs, v < w) : g.Wired where
  made_once := by
    intro v hv
    rcases (h.defined v).1 hv with hin | hout
    · exact .inl ⟨List.count_eq_one_of_mem h.inputs_nodup hin, List.count_eq_zero.2 (h.disjoint v hin)⟩
    · exact .inr ⟨List.count_eq_zero.2 fun hin => h.disjoint v hin hout,
        List.count_eq_one_of_mem h.produced_nodup hout⟩
  made_lt := fun v => (h.defined v).2
  reads_made := by
    intro i a ha v hv
    refine ⟨hrising a (List.mem_of_getElem? ha) v hv, ?_⟩
    simpa using h.ordered.earlier ha hv
  inputs_nodup := h.inputs_nodup
  outputs_nodup := h.outputs_nodup
  outputs_made := fun v hv =>
    ⟨h.outputs_produced v hv, fun hin => h.disjoint v hin (h.outputs_produced v hv)⟩

end Graph

/-- **Builders make well-formed graphs only.** Whatever calls a new builder has had, the next one fails if
and only if it reads a variable that has not been made, and then the builder is as it was; the graph with
given outputs is refused if and only if one of them has not been made, is an input or is repeated; and a
graph that is not refused has these outputs and is wired. -/
theorem GraphBuilder.wired_of_calls (name : String) (calls : List Call) (b : GraphBuilder)
    (hb : ({ name } : GraphBuilder).after calls = b) :
    (∀ c, ((∃ fault, (b.call c).1 = .error fault) ↔ ∃ v ∈ c.reads, b.vars.length ≤ v) ∧
      ∀ fault, (b.call c).1 = .error fault → (b.call c).2 = b) ∧
    ∀ outputs,
      ((∃ fault, b.finish outputs = .error fault) ↔
        (∃ v ∈ outputs, b.vars.length ≤ v) ∨ (∃ v ∈ outputs, v ∈ b.inputs) ∨ ¬ outputs.Nodup) ∧
      ∀ g, b.finish outputs = .ok g → g.outputs = outputs ∧ g.Wired := by
  refine ⟨fun c => ⟨call_eq_error_iff b c, fun fault => call_of_error⟩, fun outputs =>
    ⟨finish_eq_error_iff b outputs, fun g hfinish => ?_⟩⟩
  have hbuilt : b.Built := hb ▸ (Built.new name).after calls
  have hwell : g.WellFormed := Graph.Finished.wellFormed ⟨b, outputs, hbuilt, hfinish⟩
  unfold finish at hfinish
  split at hfinish
  · cases hfinish
  · cases hfinish
    exact ⟨rfl, hwell.wired hbuilt.rising⟩

/-- An input, an application that reads what is not there, and two that do not. -/
def GraphBuilder.slip : List Call :=
  [.addInput ⟨.i32, 1⟩, .apply (Library.binary .add .i32) [0, 1] [⟨.i32, 1⟩],
    .applySingle (Library.binary .mul .i32) [0, 0] ⟨.i32, 1⟩,
    .apply (Library.reduceSum .i32) [1] [⟨.i32, 0⟩]]

/-- Its two results, in any order, are the outputs of a graph, but not together with its input. -/
theorem GraphBuilder.wired_slip :
    ∃ b g, ({ name := "slip" } : GraphBuilder).after slip = b ∧ b.finish [2, 1] = .ok g ∧ g.Wired ∧
      (∃ fault, b.finish [2, 0] = .error fault) ∧
      (b.call (.apply (Library.reduceSum .i32) [3] [⟨.i32, 0⟩])).2 = b := by
  obtain ⟨hcall, hfinish⟩ := wired_of_calls "slip" slip _ rfl
  refine ⟨_, _, rfl, rfl, ((hfinish [2, 1]).2 _ rfl).2, ?_, ?_⟩
  · exact (hfinish [2, 0]).1.2 (.inr (.inl ⟨0, by simp, by decide⟩))
  · obtain ⟨fault, hfault⟩ := (hcall (.apply (Library.reduceSum .i32) [3] [⟨.i32, 0⟩])).1.2
      ⟨3, by simp [Call.reads], by decide⟩
    exact (hcall _).2 fault hfault

end OpFusion
