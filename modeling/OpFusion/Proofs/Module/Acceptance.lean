/-
  Which graphs of library kinds are modules.

  The global blocks of library kinds never clash: all kernels share one block, and the block of an
  application is named by its position (`Symbol.position_inj`). This is the invariant `Progress.Common`
  of what has been collected, and an application that its kind accepts keeps it (`Common.add`). So a graph
  of library kinds is a module if and only if each kind accepts its application, and otherwise the error
  is that of the first one that is refused (`assemble_iff_accepted`).
-/
import OpFusion.Proofs.Graph.Calls
import OpFusion.Proofs.Module.Plain
import OpFusion.Proofs.Symbol.Names

namespace OpFusion

/-! ## Names of applications -/

namespace Symbol

/-- A symbol of an application tells its position. -/
theorem position_inj {i j : Nat} {kind kind' name name' : String}
    (h : owned (application i kind) name = owned (application j kind') name') : i = j := by
  have hother : Names (application j kind') (owned (application i kind) name) := h ▸ .symbol name'
  exact Names.position_eq (.symbol name) hother

/-- A symbol of an application begins with a letter that no other symbol begins with. -/
theorem head_owned (position : Nat) (kind name : String) :
    (owned (application position kind) name).toList.head? = some 'n' := by
  simp [owned, application]

end Symbol

namespace Kernel

variable {k : Kernel} {c : Context}

/-- The global blocks of one application. -/
def blocks (c : Context) : Kernel → List SupportBlock
  | .binary op d => [combineBlock c op d]
  | _ => []

theorem kindBlocks_eq (k : Kernel) : k.kind.kindBlocks = [stridedOffsetBlock] := by cases k <;> rfl

theorem appBlocks_eq (k : Kernel) (c : Context) : k.kind.appBlocks c = .ok (k.blocks c) := by
  cases k <;> rfl

/-- An application that is accepted has as many extents for its result as the result has axes. -/
theorem length_resultExtents_eq (h : k.kind.check c = .ok ()) :
    (k.resultExtents c).length = c.outputRank 0 := by
  cases k with
  | scale d =>
    obtain ⟨_, -, h⟩ := Outcome.bind_eq_ok.1 h
    obtain ⟨_, -, h⟩ := Outcome.bind_eq_ok.1 h
    obtain ⟨_, -, hrank⟩ := Outcome.bind_eq_ok.1 h
    have hrank : c.outputRank 0 = c.inputRank 0 := by simpa using Library.require_eq_ok.1 hrank
    simp [resultExtents, Extent.like, hrank]
  | reduceSum d =>
    obtain ⟨_, -, h⟩ := Outcome.bind_eq_ok.1 h
    obtain ⟨_, -, hrank⟩ := Outcome.bind_eq_ok.1 h
    have hrank : c.outputRank 0 = 0 := by simpa using Library.require_eq_ok.1 hrank
    simp [resultExtents, hrank]
  | binary op d =>
    obtain ⟨_, -, h⟩ := Outcome.bind_eq_ok.1 h
    obtain ⟨_, -, hrank⟩ := Outcome.bind_eq_ok.1 h
    have hrank : c.inputRank 1 = c.inputRank 0 ∧ c.outputRank 0 = c.inputRank 0 := by
      simpa using Library.require_eq_ok.1 hrank
    simp [resultExtents, Extent.like, hrank.2]
  | unary op d =>
    obtain ⟨_, -, h⟩ := Outcome.bind_eq_ok.1 h
    obtain ⟨_, -, h⟩ := Outcome.bind_eq_ok.1 h
    obtain ⟨_, -, hrank⟩ := Outcome.bind_eq_ok.1 h
    have hrank : c.outputRank 0 = c.inputRank 0 := by simpa using Library.require_eq_ok.1 hrank
    simp [resultExtents, Extent.like, hrank]

end Kernel

/-! ## Refusals -/

/-- A check that never ends without an answer. -/
def Refusal.Reasoned (answer : Except Refusal Unit) : Prop :=
  ∀ r, answer = .error r → ∃ reason, r = .reject reason

namespace Refusal.Reasoned

theorem bind {x : Except Refusal Unit} {f : Unit → Except Refusal Unit} (h : Reasoned x)
    (hf : Reasoned (f ())) : Reasoned (x >>= f) := by
  intro r hr
  cases x with
  | error r' => exact h r hr
  | ok u => exact hf r hr

theorem expectArity (c : Context) (inputs outputs : Nat) : Reasoned (c.expectArity inputs outputs) := by
  intro r hr
  unfold Context.expectArity at hr
  split at hr
  · cases hr
  · cases hr
    exact ⟨_, rfl⟩

theorem expectDType (c : Context) (d : DType) : Reasoned (c.expectDType d) := by
  intro r hr
  unfold Context.expectDType at hr
  split at hr
  · cases hr
  · cases hr
    exact ⟨_, rfl⟩

theorem require (condition : Bool) (reason : String) : Reasoned (Library.require condition reason) := by
  intro r hr
  unfold Library.require at hr
  split at hr
  · cases hr
  · cases hr
    exact ⟨_, rfl⟩

end Refusal.Reasoned

open Refusal.Reasoned in
/-- A library kind that refuses an application says why. -/
theorem Kernel.reasoned_check (k : Kernel) (c : Context) : Refusal.Reasoned (k.kind.check c) := by
  cases k with
  | scale d =>
    exact bind (expectArity c 2 1) (bind (expectDType c d) (bind (require _ _) (require _ _)))
  | reduceSum d => exact bind (expectArity c 1 1) (bind (expectDType c d) (require _ _))
  | binary op d => exact bind (expectArity c 2 1) (bind (expectDType c d) (require _ _))
  | unary op d =>
    exact bind (expectArity c 1 1) (bind (require _ _) (bind (expectDType c d) (require _ _)))

/-! ## Blocks of one symbol -/

/-- A block of one symbol can be put into a set that has no other block of its identity, if no other block
owns the symbol. -/
theorem Support.insert_ok {blocks : SupportSet} {table : SymbolTable} {symbol : String}
    (block : SupportBlock) (owner : String) (hsymbols : block.symbols = [symbol])
    (hsame : ∀ b ∈ blocks, b.id = block.id → b = block)
    (hfree : ∀ id, (symbol, id) ∈ table → id = block.id) :
    ∃ blocks' table', insert blocks table block owner = .ok (blocks', table') ∧
      (∀ b ∈ blocks', b ∈ blocks ∨ b = block) ∧ ∀ e ∈ table', e ∈ table ∨ e = (symbol, block.id) := by
  have hclaim : claimSymbol block.id owner table symbol = .ok ((symbol, block.id) :: table) := by
    unfold claimSymbol
    split
    · next other hother =>
      obtain ⟨before, rest, rfl, -⟩ := List.lookup_eq_some_iff.1 hother
      rw [if_pos (hfree other (by simp))]
    · rfl
  unfold insert
  cases hfind : blocks.find? (·.id = block.id) with
  | some existing =>
    have hid : existing.id = block.id := by simpa using List.find?_some hfind
    dsimp only
    rw [if_pos (hsame existing (List.mem_of_find?_eq_some hfind) hid)]
    exact ⟨blocks, table, rfl, fun b hb => .inl hb, fun e he => .inl he⟩
  | none =>
    rw [hsymbols, List.foldlM_cons, hclaim]
    refine ⟨blocks ++ [block], (symbol, block.id) :: table, rfl, ?_, ?_⟩
    · intro b hb
      simpa using hb
    · intro e he
      exact (List.mem_cons.1 he).symm

/-! ## Collecting library kinds -/

namespace Assembly

variable {g : Graph} {a : Application} {p : Progress} {k : Kernel}

/-- A symbol of an application that stands before a position. -/
def OfEarlier (position : Nat) (symbol : String) : Prop :=
  ∃ i < position, ∃ kind name, symbol = Symbol.owned (Symbol.application i kind) name

/-- What has been collected of library kinds: the block that kernels share, and blocks of the
applications so far. -/
structure Progress.Common (p : Progress) : Prop where
  kindBlocks : ∀ b ∈ p.kindBlocks, b = Kernel.stridedOffsetBlock
  appBlocks : ∀ b ∈ p.appBlocks, OfEarlier p.signatures.length b.id
  symbols : ∀ symbol id, (symbol, id) ∈ p.symbols →
    symbol ∈ Module.reservedSymbols ∨
      (symbol, id) = (Kernel.stridedOffsetName, Kernel.stridedOffsetId) ∨
      OfEarlier p.signatures.length symbol

theorem OfEarlier.succ {position : Nat} {symbol : String} (h : OfEarlier position symbol) :
    OfEarlier (position + 1) symbol := by
  obtain ⟨i, hi, hsymbol⟩ := h
  exact ⟨i, by omega, hsymbol⟩

theorem ofEarlier_combineName (g : Graph) (position : Nat) (a : Application) :
    OfEarlier (position + 1) (Kernel.combineName (context g position a)) :=
  ⟨position, by omega, a.kind.name, "combine", rfl⟩

/-- A symbol of an application is none of an earlier application. -/
theorem OfEarlier.ne_combineName {position : Nat} {symbol : String} (h : OfEarlier position symbol)
    (g : Graph) (a : Application) : symbol ≠ Kernel.combineName (context g position a) := by
  obtain ⟨i, hi, kind, name, rfl⟩ := h
  intro heq
  have := Symbol.position_inj heq
  omega

/-- A symbol of an application is none of the prelude and is not that of the shared block. -/
theorem OfEarlier.head {position : Nat} {symbol : String} (h : OfEarlier position symbol) :
    symbol.toList.head? = some 'n' := by
  obtain ⟨i, -, kind, name, rfl⟩ := h
  exact Symbol.head_owned i kind name

theorem common_start : Progress.start.Common := by
  refine ⟨by simp [Progress.start], by simp [Progress.start], ?_⟩
  intro symbol id hmem
  obtain ⟨reserved, hreserved, heq⟩ := List.mem_map.1 hmem
  cases heq
  exact .inl hreserved

theorem planOutputs_ok {c : Context} (hk : a.kind = k.kind) (hc : c = context g p.signatures.length a)
    (hcheck : a.kind.check c = .ok ()) : ∃ outputs, planOutputs g a c 0 a.outputs = .ok outputs := by
  rw [hk] at hcheck
  have hchecked := Kernel.checked hcheck
  have hrank := Kernel.length_resultExtents_eq hcheck
  obtain ⟨var, hvar⟩ : ∃ var, a.outputs = [var] :=
    List.length_eq_one_iff.1 (by simpa [hc, context, Graph.bindings] using hchecked.outputs)
  have hdesc : c.outputRank 0 = (g.binding var).desc.rank := by
    simp [hc, context, Graph.bindings, hvar, Context.outputRank]
  rw [hvar, planOutputs, planOutput, hk, Kernel.extents_eq hchecked]
  show ∃ outputs, ((if (k.resultExtents c).length = (g.binding var).desc.rank then _ else _) >>= _) = _
  rw [if_pos (hrank.trans hdesc)]
  exact ⟨_, rfl⟩

/-- The block that kernels share can be collected again. -/
theorem Progress.Common.insert_shared (h : p.Common) (owner : String) :
    ∃ kindBlocks symbols,
      Support.insertAll p.kindBlocks p.symbols owner [Kernel.stridedOffsetBlock] =
        .ok (kindBlocks, symbols) ∧
      (∀ b ∈ kindBlocks, b = Kernel.stridedOffsetBlock) ∧
      ∀ e ∈ symbols, e ∈ p.symbols ∨ e = (Kernel.stridedOffsetName, Kernel.stridedOffsetId) := by
  have hfree : ∀ id, (Kernel.stridedOffsetName, id) ∈ p.symbols → id = Kernel.stridedOffsetId := by
    intro id hmem
    rcases h.symbols _ _ hmem with hreserved | hshared | hearlier
    · exact absurd hreserved (by decide)
    · exact (Prod.mk.inj hshared).2
    · exact absurd hearlier.head (by decide)
  obtain ⟨kindBlocks, symbols, hinsert, hblocks, hsymbols⟩ :=
    Support.insert_ok Kernel.stridedOffsetBlock owner rfl (fun b hb _ => h.kindBlocks b hb) hfree
  refine ⟨kindBlocks, symbols, ?_, fun b hb => (hblocks b hb).elim (h.kindBlocks b) id, hsymbols⟩
  rw [Support.insertAll, hinsert]
  rfl

/-- The block of an application can be collected after those of earlier applications. -/
theorem Progress.Common.insert_own (h : p.Common) (owner : String) {symbols : SymbolTable}
    (hsymbols : ∀ e ∈ symbols, e ∈ p.symbols ∨ e = (Kernel.stridedOffsetName, Kernel.stridedOffsetId))
    {c : Context} (hc : c = context g p.signatures.length a) (k : Kernel) :
    ∃ appBlocks symbols',
      Support.insertAll p.appBlocks symbols owner (k.blocks c) = .ok (appBlocks, symbols') ∧
      (∀ b ∈ appBlocks, b ∈ p.appBlocks ∨ b.id = Kernel.combineName c) ∧
      ∀ e ∈ symbols', e ∈ symbols ∨ e.1 = Kernel.combineName c := by
  have hnone : ∃ appBlocks symbols',
      Support.insertAll p.appBlocks symbols owner [] = .ok (appBlocks, symbols') ∧
      (∀ b ∈ appBlocks, b ∈ p.appBlocks ∨ b.id = Kernel.combineName c) ∧
      ∀ e ∈ symbols', e ∈ symbols ∨ e.1 = Kernel.combineName c :=
    ⟨_, _, rfl, fun _ => .inl, fun _ => .inl⟩
  cases k with
  | scale d => exact hnone
  | reduceSum d => exact hnone
  | unary op d => exact hnone
  | binary op d =>
    -- neither the identity nor the symbol has been seen before
    have hsame : ∀ b ∈ p.appBlocks, b.id = Kernel.combineName c → b = Kernel.combineBlock c op d := by
      intro b hb hid
      exact absurd (hc ▸ hid) ((h.appBlocks b hb).ne_combineName g a)
    have hfree : ∀ id, (Kernel.combineName c, id) ∈ symbols → id = Kernel.combineName c := by
      have hown : (Kernel.combineName c).toList.head? = some 'n' := by
        rw [hc]
        exact (ofEarlier_combineName g p.signatures.length a).head
      intro id hmem
      exfalso
      rcases hsymbols _ hmem with hmem | hshared
      · rcases h.symbols _ _ hmem with hreserved | hshared | hearlier
        · have hreserved' : ∀ s ∈ Module.reservedSymbols, s.toList.head? ≠ some 'n' := by decide
          exact hreserved' _ hreserved hown
        · rw [(Prod.mk.inj hshared).1] at hown
          exact absurd hown (by decide)
        · exact hearlier.ne_combineName g a (hc ▸ rfl)
      · rw [(Prod.mk.inj hshared).1] at hown
        exact absurd hown (by decide)
    obtain ⟨appBlocks, symbols', hinsert, hblocks, htable⟩ :=
      Support.insert_ok (Kernel.combineBlock c op d) owner rfl hsame hfree
    refine ⟨appBlocks, symbols', ?_, fun b hb => (hblocks b hb).imp_right (congrArg SupportBlock.id),
      fun e he => (htable e he).imp_right (congrArg Prod.fst)⟩
    rw [Kernel.blocks, Support.insertAll, hinsert]
    rfl

/-- **An application of a library kind that is accepted is collected.** -/
theorem Progress.Common.add (h : p.Common) (hk : a.kind = k.kind)
    (hcheck : a.kind.check (context g p.signatures.length a) = .ok ()) :
    ∃ p', p.add g a = .ok p' ∧ p'.Common ∧ p'.signatures.length = p.signatures.length + 1 := by
  generalize hc : context g p.signatures.length a = c at hcheck
  obtain ⟨kindBlocks, symbols, hkind, hkindBlocks, hsymbols⟩ := h.insert_shared (owner a c)
  obtain ⟨appBlocks, symbols', happ, happBlocks, hsymbols'⟩ :=
    h.insert_own (owner a c) hsymbols hc.symm k
  obtain ⟨outputs, houtputs⟩ := planOutputs_ok hk hc.symm hcheck
  have hbody : a.kind.body c = .ok (.kernel k) := by rw [hk, Kernel.body_eq]
  have hadd : p.add g a = .ok {
      symbols := symbols', kindBlocks, appBlocks
      link := p.link.merge a.kind.link
      reentrant := p.reentrant && a.kind.reentrant
      signatures := p.signatures ++ [signature g a c]
      plans := p.plans ++ [⟨c, a.inputs.map g.slot, outputs, .kernel k⟩] } := by
    have hkindBlocks' : a.kind.kindBlocks = [Kernel.stridedOffsetBlock] := by rw [hk, Kernel.kindBlocks_eq]
    have hblocks : a.kind.appBlocks c = .ok (k.blocks c) := by rw [hk, Kernel.appBlocks_eq]
    unfold Progress.add
    dsimp only
    rw [hc, hcheck, hkindBlocks', hkind, hblocks, houtputs, hbody]
    show (Except.mapError _ (Support.insertAll _ _ _ (k.blocks c)) >>= _) = _
    rw [happ]
    rfl
  have hlength : (p.signatures ++ [signature g a c]).length = p.signatures.length + 1 := by simp
  refine ⟨_, hadd, ⟨hkindBlocks, ?_, ?_⟩, hlength⟩
  · intro b hb
    show OfEarlier (p.signatures ++ [signature g a c]).length b.id
    rw [hlength]
    rcases happBlocks b hb with hb | hid
    · exact (h.appBlocks b hb).succ
    · rw [hid, ← hc]
      exact ofEarlier_combineName g p.signatures.length a
  · intro symbol id hmem
    show _ ∨ _ ∨ OfEarlier (p.signatures ++ [signature g a c]).length symbol
    rw [hlength]
    rcases hsymbols' _ hmem with hmem | hown
    · rcases hsymbols _ hmem with hmem | hshared
      · exact (h.symbols _ _ hmem).imp_right (Or.imp_right OfEarlier.succ)
      · exact .inr (.inl hshared)
    · refine .inr (.inr ?_)
      rw [show symbol = _ from hown, ← hc]
      exact ofEarlier_combineName g p.signatures.length a

theorem Progress.add_of_refused {r : Refusal}
    (hcheck : a.kind.check (context g p.signatures.length a) = .error r) :
    p.add g a = .error (r.toError a.kind.name (Symbol.application p.signatures.length a.kind.name)) := by
  unfold Progress.add
  dsimp only
  rw [hcheck]
  rfl

/-! ## Acceptance -/

/-- The kind of the application at a position accepts it. -/
def Accepted (g : Graph) (position : Nat) (a : Application) : Prop :=
  a.kind.check (context g position a) = .ok ()

/-- The first of the applications from a position on that is refused, and why. -/
structure FirstRefused (g : Graph) (start : Nat) (apps : List Application) (i : Nat) (a : Application)
    (reason : String) : Prop where
  application : apps[i]? = some a
  refused : a.kind.check (context g (start + i) a) = .error (.reject reason)
  earlier : ∀ j < i, ∀ b, apps[j]? = some b → Accepted g (start + j) b

/-- All applications are accepted and collected, or the first one that is refused is the error. -/
theorem collected_or_refused {apps : List Application} (h : p.Common)
    (hkinds : ∀ a ∈ apps, ∃ k : Kernel, a.kind = k.kind) :
    ((∃ p', apps.foldlM (Progress.add g) p = .ok p') ∧
      ∀ i a, apps[i]? = some a → Accepted g (p.signatures.length + i) a) ∨
    ∃ i a reason, FirstRefused g p.signatures.length apps i a reason ∧
      apps.foldlM (Progress.add g) p = .error (.contributor a.kind.name
        (Symbol.application (p.signatures.length + i) a.kind.name) reason) := by
  induction apps generalizing p with
  | nil => exact .inl ⟨⟨p, rfl⟩, by simp⟩
  | cons a apps ih =>
    obtain ⟨k, hk⟩ := hkinds a (by simp)
    cases hcheck : a.kind.check (context g p.signatures.length a) with
    | error r =>
      obtain ⟨reason, rfl⟩ := Kernel.reasoned_check k _ r (hk ▸ hcheck)
      refine .inr ⟨0, a, reason, ⟨rfl, hcheck, by simp⟩, ?_⟩
      rw [List.foldlM_cons, Progress.add_of_refused hcheck]
      rfl
    | ok u =>
      obtain ⟨p', hadd, hcommon, hlength⟩ := h.add hk hcheck
      have hfold : (a :: apps).foldlM (Progress.add g) p = apps.foldlM (Progress.add g) p' := by
        rw [List.foldlM_cons, hadd]
        rfl
      have hshift : ∀ i, p'.signatures.length + i = p.signatures.length + (i + 1) := by
        intro i
        omega
      rw [hfold]
      rcases ih hcommon (fun b hb => hkinds b (by simp [hb])) with ⟨hok, haccepted⟩ |
        ⟨i, b, reason, hfirst, herror⟩
      · refine .inl ⟨hok, ?_⟩
        rintro (_ | i) b hb
        · cases hb
          exact hcheck
        · rw [← hshift]
          exact haccepted i b hb
      · rw [hshift] at herror
        refine .inr ⟨i + 1, b, reason, ⟨hfirst.application, hshift i ▸ hfirst.refused, ?_⟩, herror⟩
        rintro (_ | j) hj c hc
        · cases hc
          exact hcheck
        · rw [← hshift]
          exact hfirst.earlier j (by omega) c hc

/-- **A graph of library kinds is a module if and only if each kind accepts its application.** Otherwise
the error names the first application that is refused. Either way, each variable that the graph mentions is
one of its variables and has a slot. -/
theorem assemble_iff_accepted (hg : g.Finished)
    (hkinds : ∀ a ∈ g.applications, ∃ k : Kernel, a.kind = k.kind) :
    ((∃ m, assemble g = .ok m) ↔ ∀ i a, g.applications[i]? = some a → Accepted g i a) ∧
    (∀ e, assemble g = .error e → ∃ i a reason, FirstRefused g 0 g.applications i a reason ∧
      e = .contributor a.kind.name (Symbol.application i a.kind.name) reason) ∧
    ∀ v, (v ∈ g.inputs ∨ v ∈ g.outputs ∨ ∃ a ∈ g.applications, v ∈ a.inputs ∨ v ∈ a.outputs) →
      v < g.vars.length ∧ g.HasSlot (g.slot v) := by
  have hcollect := collected_or_refused (g := g) common_start hkinds
  simp only [show Progress.start.signatures.length = 0 from rfl, Nat.zero_add] at hcollect
  refine ⟨?_, ?_, ?_⟩
  · rcases hcollect with ⟨⟨p, hp⟩, haccepted⟩ | ⟨i, a, reason, hfirst, herror⟩
    · exact iff_of_true (assemble_of_collect hkinds (Outcome.isOk_iff.2 ⟨p, hp⟩)) haccepted
    · refine iff_of_false ?_ ?_
      · rintro ⟨m, hm⟩
        obtain ⟨p, q, hp, -⟩ := assemble_eq_ok hm
        exact absurd (hp.symm.trans herror) (by simp)
      · intro haccepted
        have hrefused := hfirst.refused
        rw [Nat.zero_add] at hrefused
        exact absurd (hrefused.symm.trans (haccepted i a hfirst.application)) (by simp)
  · intro e he
    rcases hcollect with ⟨⟨p, hp⟩, -⟩ | ⟨i, a, reason, hfirst, herror⟩
    · obtain ⟨m, hm⟩ := assemble_of_collect hkinds (Outcome.isOk_iff.2 ⟨p, hp⟩)
      exact absurd (he.symm.trans hm) (by simp)
    · refine ⟨i, a, reason, hfirst, ?_⟩
      rw [assemble, collect, herror] at he
      cases he
      rfl
  · intro v hv
    have hwell := hg.wellFormed
    have hdefined : g.Defined v := by
      rcases hv with hin | hout | ⟨a, ha, hin | hout⟩
      · exact .inl hin
      · exact .inr (hwell.outputs_produced v hout)
      · obtain ⟨i, hi⟩ := List.mem_iff_getElem?.1 ha
        rcases hwell.ordered.earlier hi hin with hin | hmade | ⟨j, -, earlier, hearlier, hout⟩
        · exact .inl hin
        · cases hmade
        · exact .inr (List.mem_flatMap.2 ⟨earlier, List.mem_of_getElem? hearlier, hout⟩)
      · exact .inr (List.mem_flatMap.2 ⟨a, ha, hout⟩)
    exact ⟨(hwell.defined v).2 hdefined, hwell.hasSlot hdefined⟩

/-- A vector times itself and then added to itself, with a result of the given rank. -/
def squares (rank : Nat) : Graph where
  name := "squares"
  vars := [⟨.i32, 1⟩, ⟨.i32, 1⟩, ⟨.i32, rank⟩]
  applications := [⟨Library.binary .mul .i32, [0, 0], [1]⟩, ⟨Library.binary .add .i32, [1, 0], [2]⟩]
  inputs := [0]
  outputs := [2]

theorem finished_squares (rank : Nat) : (squares rank).Finished := by
  have hmul : GraphBuilder.Built _ :=
    @GraphBuilder.Built.apply _ _ (Library.binary .mul .i32) [0, 0] _ [⟨.i32, 1⟩]
      (.addInput ⟨.i32, 1⟩ (.new "squares")) rfl
  have hadd : GraphBuilder.Built _ :=
    @GraphBuilder.Built.apply _ _ (Library.binary .add .i32) [1, 0] _ [⟨.i32, rank⟩] hmul rfl
  exact ⟨_, [2], hadd, rfl⟩

/-- The result has to be a vector. -/
theorem assemble_squares :
    (∃ m, assemble (squares 1) = .ok m) ∧
    assemble (squares 0) = .error (.contributor "elementwise_binary" "n1_elementwise_binary"
      "operands must share rank 1, got 1 and output 0") := by
  have hkinds : ∀ rank, ∀ a ∈ (squares rank).applications, ∃ k : Kernel, a.kind = k.kind := by
    intro rank a ha
    simp only [squares, List.mem_cons, List.not_mem_nil, or_false] at ha
    rcases ha with rfl | rfl
    · exact ⟨.binary .mul .i32, rfl⟩
    · exact ⟨.binary .add .i32, rfl⟩
  have hfirst : ∀ rank, Accepted (squares rank) 0 ⟨Library.binary .mul .i32, [0, 0], [1]⟩ := fun _ => rfl
  have hreason : "operands must share rank " ++ toString 1 ++ ", got " ++ toString 1 ++
      " and output " ++ toString 0 = "operands must share rank 1, got 1 and output 0" := by decide +kernel
  have hsecond : (Library.binary .add .i32).check
      (context (squares 0) 1 ⟨Library.binary .add .i32, [1, 0], [2]⟩) =
        .error (.reject "operands must share rank 1, got 1 and output 0") := by
    rw [← hreason]
    rfl
  have hname : Symbol.application 1 "elementwise_binary" = "n1_elementwise_binary" := by decide +kernel
  constructor
  · refine (assemble_iff_accepted (finished_squares 1) (hkinds 1)).1.2 ?_
    rintro (_ | _ | i) a ha
    · cases ha
      exact hfirst 1
    · cases ha
      rfl
    · cases ha
  · obtain ⟨hiff, herror, -⟩ := assemble_iff_accepted (finished_squares 0) (hkinds 0)
    cases hm : assemble (squares 0) with
    | ok m =>
      exact absurd (hsecond.symm.trans (hiff.1 ⟨m, hm⟩ 1 _ rfl)) (by simp)
    | error e =>
      obtain ⟨i, a, reason, hrefused, rfl⟩ := herror e hm
      obtain ⟨happ, hcheck, -⟩ := hrefused
      rcases i with _ | _ | i
      · cases happ
        exact absurd (hcheck.symm.trans (hfirst 0)) (by simp)
      · cases happ
        obtain rfl : reason = _ := by simpa using hcheck.symm.trans hsecond
        rw [← hname]
        rfl
      · cases happ

end Assembly

end OpFusion
