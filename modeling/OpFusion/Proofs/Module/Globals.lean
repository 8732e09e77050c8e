/-
  The global definitions of a module.

  A module writes every block that an application asks for, on behalf of its kind (`KindBlock`) or on its
  own behalf (`AppBlock`), and nothing else. Within either sort each identity is written once, and blocks
  that share a symbol share their identity. The two sorts are told apart, however, only by the table of
  symbols, and the table compares identities: a block of either sort may repeat the identity and the
  symbols of one of the other sort, and a block under the identity of the prelude may take its symbols.
  `unambiguous_iff`: these two are the only ways to define something twice.
-/
import OpFusion.Proofs.Module.Plain

namespace OpFusion

namespace Piece

theorem renderAll_append {ps qs : List Piece} {s t : String} (hs : renderAll ps = .ok s)
    (ht : renderAll qs = .ok t) : renderAll (ps ++ qs) = .ok (s ++ t) := by
  induction ps generalizing s with
  | nil =>
    cases hs
    rw [List.nil_append, ht, String.empty_append]
  | cons p ps ih =>
    obtain ⟨head, hhead, hs⟩ := Outcome.bind_eq_ok.1 hs
    obtain ⟨rest, hrest, hs⟩ := Outcome.bind_eq_ok.1 hs
    cases hs
    rw [List.cons_append, renderAll, hhead, ih hrest, String.append_assoc]
    rfl

theorem renderAll_append_eq_ok {ps qs : List Piece} {text : String}
    (h : renderAll (ps ++ qs) = .ok text) :
    ∃ s t, renderAll ps = .ok s ∧ renderAll qs = .ok t ∧ text = s ++ t := by
  induction ps generalizing text with
  | nil => exact ⟨"", text, rfl, h, String.empty_append.symm⟩
  | cons p ps ih =>
    obtain ⟨head, hhead, h⟩ := Outcome.bind_eq_ok.1 h
    obtain ⟨rest, hrest, h⟩ := Outcome.bind_eq_ok.1 h
    cases h
    obtain ⟨s, t, hs, ht, rfl⟩ := ih hrest
    refine ⟨head ++ s, t, ?_, ht, (String.append_assoc ..).symm⟩
    rw [renderAll, hhead, hs]
    rfl

end Piece

namespace Assembly

variable {g : Graph} {a : Application} {apps : List Application} {p q : Progress} {m : Module}
  {b : SupportBlock}

/-! ## What is asked for -/

/-- A block that an application asks for on behalf of its kind. -/
def KindBlock (g : Graph) (b : SupportBlock) : Prop := ∃ a ∈ g.applications, b ∈ a.kind.kindBlocks

/-- A block that an application asks for on its own behalf. -/
def AppBlock (g : Graph) (b : SupportBlock) : Prop :=
  ∃ (i : Nat) (a : Application) (blocks : List SupportBlock), g.applications[i]? = some a ∧
    a.kind.appBlocks (context g i a) = .ok blocks ∧ b ∈ blocks

theorem mem_kindBlocks_foldlM (h : apps.foldlM (Progress.add g) p = .ok q) :
    b ∈ q.kindBlocks ↔ b ∈ p.kindBlocks ∨ ∃ a ∈ apps, b ∈ a.kind.kindBlocks := by
  induction apps generalizing p with
  | nil =>
    cases h
    simp
  | cons a apps ih =>
    rw [List.foldlM_cons] at h
    obtain ⟨p₁, hadd, hrest⟩ := Outcome.bind_eq_ok.1 h
    obtain ⟨-, _, _, _, _, _, _, _, hkind, -, -, -, -, rfl⟩ := Progress.add_eq_ok hadd
    rw [ih hrest, Support.mem_insertAll hkind, List.exists_mem_cons_iff, or_assoc]

theorem mem_appBlocks_foldlM (h : apps.foldlM (Progress.add g) p = .ok q) :
    b ∈ q.appBlocks ↔ b ∈ p.appBlocks ∨ ∃ (i : Nat) (a : Application) (blocks : List SupportBlock),
      apps[i]? = some a ∧ a.kind.appBlocks (context g (p.signatures.length + i) a) = .ok blocks ∧
        b ∈ blocks := by
  induction apps generalizing p with
  | nil =>
    cases h
    simp
  | cons a apps ih =>
    rw [List.foldlM_cons] at h
    obtain ⟨p₁, hadd, hrest⟩ := Outcome.bind_eq_ok.1 h
    obtain ⟨-, _, _, blocks, _, _, _, _, -, hblocks, happ, -, -, rfl⟩ := Progress.add_eq_ok hadd
    rw [ih hrest, Support.mem_insertAll happ, or_assoc]
    refine or_congr_right ?_
    constructor
    · rintro (hb | ⟨i, a', blocks', ha', hblocks', hb⟩)
      · exact ⟨0, a, blocks, rfl, hblocks, hb⟩
      · refine ⟨i + 1, a', blocks', ha', ?_, hb⟩
        rwa [List.length_append, List.length_singleton, Nat.add_assoc, Nat.add_comm 1 i] at hblocks'
    · rintro ⟨i, a', blocks', ha', hblocks', hb⟩
      cases i with
      | zero =>
        cases ha'
        rw [Nat.add_zero, hblocks] at hblocks'
        cases hblocks'
        exact Or.inl hb
      | succ i =>
        refine Or.inr ⟨i, a', blocks', ha', ?_, hb⟩
        rwa [List.length_append, List.length_singleton, Nat.add_assoc, Nat.add_comm 1 i]

theorem mem_kindBlocks_iff (h : collect g = .ok p) : b ∈ p.kindBlocks ↔ KindBlock g b := by
  simpa [Progress.start, KindBlock] using mem_kindBlocks_foldlM (b := b) h

theorem mem_appBlocks_iff (h : collect g = .ok p) : b ∈ p.appBlocks ↔ AppBlock g b := by
  simpa [Progress.start, AppBlock] using mem_appBlocks_foldlM (b := b) h

/-! ## Who owns what -/

/-- The blocks of either sort own their symbols, and the prelude owns its own. -/
structure Progress.Owned (p : Progress) : Prop where
  kindBlocks : Support.Owned p.kindBlocks p.symbols
  appBlocks : Support.Owned p.appBlocks p.symbols
  reserved : ∀ s ∈ Module.reservedSymbols, p.symbols.lookup s = some Module.preludeId

theorem owned_start : Progress.start.Owned := by
  refine ⟨⟨by simp [Progress.start], by simp [Progress.start]⟩,
    ⟨by simp [Progress.start], by simp [Progress.start]⟩, ?_⟩
  have hlookup : ∀ (l : List String), ∀ s ∈ l,
      (l.map fun symbol => (symbol, Module.preludeId)).lookup s = some Module.preludeId := by
    intro l
    induction l with
    | nil => simp
    | cons x l ih =>
      intro s hs
      rw [List.map_cons, Table.lookup_pair]
      split
      · rfl
      · next hne => exact ih s ((List.mem_cons.1 hs).resolve_left hne)
  exact hlookup _

theorem Progress.Owned.add (h : p.Owned) (hadd : p.add g a = .ok q) : q.Owned := by
  obtain ⟨-, _, _, _, _, _, _, _, hkind, -, happ, -, -, rfl⟩ := add_eq_ok hadd
  obtain ⟨hkinds, hkeeps⟩ := h.kindBlocks.insertAll hkind
  obtain ⟨happs, hkeeps'⟩ := (h.appBlocks.mono hkeeps).insertAll happ
  refine ⟨hkinds.mono hkeeps', happs, ?_⟩
  intro s hs
  exact hkeeps' s _ (hkeeps s _ (h.reserved s hs))

theorem owned_of_foldlM (h : p.Owned) (hfold : apps.foldlM (Progress.add g) p = .ok q) : q.Owned := by
  induction apps generalizing p with
  | nil =>
    cases hfold
    exact h
  | cons a apps ih =>
    rw [List.foldlM_cons] at hfold
    obtain ⟨p₁, hadd, hrest⟩ := Outcome.bind_eq_ok.1 hfold
    exact ih (h.add hadd) hrest

theorem owned_of_collect (h : collect g = .ok p) : p.Owned := owned_of_foldlM owned_start h

theorem Progress.Owned.lookup (h : p.Owned) (hb : b ∈ p.kindBlocks ∨ b ∈ p.appBlocks) {s : String}
    (hs : s ∈ b.symbols) : p.symbols.lookup s = some b.id :=
  hb.elim (fun hb => h.kindBlocks.symbols b hb s hs) fun hb => h.appBlocks.symbols b hb s hs

/-- Blocks that share a symbol share their identity. -/
theorem Progress.Owned.id_eq (h : p.Owned) {b' : SupportBlock} (hb : b ∈ p.kindBlocks ∨ b ∈ p.appBlocks)
    (hb' : b' ∈ p.kindBlocks ∨ b' ∈ p.appBlocks) {s : String} (hs : s ∈ b.symbols)
    (hs' : s ∈ b'.symbols) : b.id = b'.id := by
  have hsame := h.lookup hb' hs'
  rw [h.lookup hb hs] at hsame
  exact Option.some.inj hsame

/-- A block with a symbol of the prelude has its identity. -/
theorem Progress.Owned.id_eq_preludeId (h : p.Owned) (hb : b ∈ p.kindBlocks ∨ b ∈ p.appBlocks)
    {s : String} (hs : s ∈ b.symbols) (hreserved : s ∈ Module.reservedSymbols) :
    b.id = Module.preludeId := by
  have hsame := h.reserved s hreserved
  rw [h.lookup hb hs] at hsame
  exact Option.some.inj hsame

/-! ## What is written -/

/-- The global blocks of a graph's module, in the order in which they are written. -/
def globalBlocks (g : Graph) : Except Error (List SupportBlock) := do
  let p ← collect g
  let ofKinds ← (Support.ordered p.kindBlocks [Module.preludeId]).mapError (·.toError)
  let ofApps ← (Support.ordered p.appBlocks
    (Module.preludeId :: p.kindBlocks.map (·.id))).mapError (·.toError)
  return ofKinds ++ ofApps

theorem globalBlocks_eq {ofKinds ofApps : List SupportBlock} (hp : collect g = .ok p)
    (hkinds : Support.ordered p.kindBlocks [Module.preludeId] = .ok ofKinds)
    (happs : Support.ordered p.appBlocks (Module.preludeId :: p.kindBlocks.map (·.id)) = .ok ofApps) :
    globalBlocks g = .ok (ofKinds ++ ofApps) := by
  rw [globalBlocks, hp]
  show (Except.mapError _ (Support.ordered _ _) >>= fun _ => _) = _
  rw [hkinds]
  show (Except.mapError _ (Support.ordered _ _) >>= fun _ => _) = _
  rw [happs]
  rfl

theorem supportText_eq_ok {blocks : SupportSet} {emitted : List String} {text : String}
    (h : supportText blocks emitted = .ok text) :
    ∃ order, Support.ordered blocks emitted = .ok order ∧
      Piece.renderAll (order.flatMap Module.supportPieces) = .ok text := by
  obtain ⟨order, horder, htext⟩ := Outcome.bind_eq_ok.1 h
  exact ⟨order, Outcome.mapError_eq_ok.1 horder, htext⟩

/-- The global code of a module is that of its blocks: those of kinds, then those of applications. -/
theorem globals_eq (h : assemble g = .ok m) : ∃ p ofKinds ofApps, collect g = .ok p ∧
    globalBlocks g = .ok (ofKinds ++ ofApps) ∧ ofKinds.Perm p.kindBlocks ∧ ofApps.Perm p.appBlocks ∧
    Piece.renderAll ((ofKinds ++ ofApps).flatMap Module.supportPieces) = .ok m.parts.globals := by
  obtain ⟨p, parts, hp, hparts, rfl⟩ := assemble_eq_ok h
  have howned := owned_of_collect hp
  obtain ⟨-, hglobals, -⟩ := parts_eq_ok hparts
  obtain ⟨kindText, hkinds, hglobals⟩ := Outcome.bind_eq_ok.1 hglobals
  obtain ⟨appText, happs, hglobals⟩ := Outcome.bind_eq_ok.1 hglobals
  obtain ⟨ofKinds, hkinds, hkindText⟩ := supportText_eq_ok hkinds
  obtain ⟨ofApps, happs, happText⟩ := supportText_eq_ok happs
  refine ⟨p, ofKinds, ofApps, hp, globalBlocks_eq hp hkinds happs,
    Support.ordered_perm howned.kindBlocks.ids hkinds, Support.ordered_perm howned.appBlocks.ids happs, ?_⟩
  rw [List.flatMap_append, ← hglobals]
  exact Piece.renderAll_append hkindText happText

/-- No identity and no symbol is there twice, and no symbol is one of the prelude. -/
structure Unambiguous (blocks : List SupportBlock) : Prop where
  ids : (blocks.map (·.id)).Nodup
  symbols : blocks.Pairwise fun b b' => ∀ s ∈ b.symbols, s ∉ b'.symbols
  reserved : ∀ b ∈ blocks, ∀ s ∈ b.symbols, s ∉ Module.reservedSymbols

/-- **When a module defines nothing twice.** Its global code is that of the blocks that were asked for;
no identity and no symbol is there twice, and no symbol of the prelude, if and only if no block of a
kind has the identity of a block of an application, and no block under the identity of the prelude has
one of its symbols. -/
theorem unambiguous_iff (h : assemble g = .ok m) : ∃ blocks, globalBlocks g = .ok blocks ∧
    Piece.renderAll (blocks.flatMap Module.supportPieces) = .ok m.parts.globals ∧
    (∀ b, b ∈ blocks ↔ KindBlock g b ∨ AppBlock g b) ∧
    (Unambiguous blocks ↔
      (∀ b b', KindBlock g b → AppBlock g b' → b.id ≠ b'.id) ∧
      ∀ b, KindBlock g b ∨ AppBlock g b → b.id = Module.preludeId →
        ∀ s ∈ b.symbols, s ∉ Module.reservedSymbols) := by
  obtain ⟨p, ofKinds, ofApps, hp, hblocks, hkinds, happs, htext⟩ := globals_eq h
  have howned := owned_of_collect hp
  have hmem : ∀ b, b ∈ ofKinds ++ ofApps ↔ b ∈ p.kindBlocks ∨ b ∈ p.appBlocks := by
    intro b
    rw [List.mem_append, hkinds.mem_iff, happs.mem_iff]
  refine ⟨_, hblocks, htext, ?_, ?_⟩
  · intro b
    rw [hmem, mem_kindBlocks_iff hp, mem_appBlocks_iff hp]
  simp only [← mem_kindBlocks_iff hp, ← mem_appBlocks_iff hp]
  constructor
  · rintro ⟨hids, -, hreserved⟩
    refine ⟨?_, fun b hb _ => hreserved b ((hmem b).2 hb)⟩
    intro b b' hb hb' hid
    rw [List.map_append, List.nodup_append] at hids
    exact hids.2.2 _ (List.mem_map_of_mem (hkinds.mem_iff.2 hb)) _
      (List.mem_map_of_mem (happs.mem_iff.2 hb')) hid
  · rintro ⟨hdistinct, hprelude⟩
    have hids : ((ofKinds ++ ofApps).map (·.id)).Nodup := by
      rw [List.map_append, List.nodup_append]
      refine ⟨(hkinds.map _).nodup_iff.2 howned.kindBlocks.ids,
        (happs.map _).nodup_iff.2 howned.appBlocks.ids, ?_⟩
      rintro i hi j hj rfl
      obtain ⟨b, hb, rfl⟩ := List.mem_map.1 hi
      obtain ⟨b', hb', hid⟩ := List.mem_map.1 hj
      exact hdistinct b b' (hkinds.mem_iff.1 hb) (happs.mem_iff.1 hb') hid.symm
    refine ⟨hids, ?_, ?_⟩
    · refine (List.pairwise_map.1 hids).imp_of_mem ?_
      intro b b' hb hb' hne s hs hs'
      exact hne (howned.id_eq ((hmem b).1 hb) ((hmem b').1 hb') hs hs')
    · intro b hb s hs hreserved
      have hid := howned.id_eq_preludeId ((hmem b).1 hb) hs hreserved
      exact hprelude b ((hmem b).1 hb) hid s hs hreserved

/-- A function that only returns a number. -/
def constant (name value : String) : SupportBlock where
  id := name
  code := "static int " ++ name ++ "(void) \x7b return " ++ value ++ "; \x7d"
  symbols := [name]
  after := []

/-- A kind that defines the function `shared` for all its applications, and a function for each. -/
def defining (name : String) : Script where
  name := "tick"
  kindBlocks := [constant "shared" "1"]
  appBlocks := [⟨constant name "2", false⟩]
  extents := some [[]]
  body := .steps []

theorem plain_constant {name value : String} (hname : Text.Plain name) (hvalue : Text.Plain value) :
    Text.Plain (constant name value).code :=
  ((((Text.plain_ofList (by decide)).append hname).append (Text.plain_ofList (by decide))).append
    hvalue).append (Text.plain_ofList (by decide))

theorem plain_defining {name : String} (h : Text.Plain name) : (defining name).Plain where
  kindBlocks := List.forall_mem_singleton.2
    ⟨rfl, plain_constant (Text.plain_ofList (by decide)) (Text.plain_ofList (by decide))⟩
  appBlocks := List.forall_mem_singleton.2 ⟨rfl, rfl, plain_constant h (Text.plain_ofList (by decide))⟩
  extents := by simp [defining]
  body _ := Text.plain_ofList (by decide)
  initCode := by simp [defining]

/-- A kind that defines its functions under two names defines none twice. -/
theorem unambiguous_own : ∃ m blocks, assemble (defining "own").alone = .ok m ∧
    globalBlocks (defining "own").alone = .ok blocks ∧ blocks.map (·.id) = ["shared", "own"] ∧
    Unambiguous blocks := by
  have hplain : (defining "own").Plain := plain_defining (Text.plain_ofList (by decide))
  obtain ⟨m, hm⟩ := hplain.assemble_alone (by decide +kernel)
  have hids : globalBlocks (defining "own").alone = .ok [constant "shared" "1", constant "own" "2"] := by rfl
  obtain ⟨blocks, hblocks, -, hmem, hiff⟩ := unambiguous_iff hm
  obtain rfl : blocks = _ := Except.ok.inj (hblocks.symm.trans hids)
  refine ⟨m, _, hm, hblocks, rfl, hiff.2 ⟨?_, ?_⟩⟩
  · rintro b b' ⟨a, ha, hb⟩ ⟨i, a', own, ha', hown, hb'⟩
    cases List.mem_singleton.1 ha
    cases List.mem_singleton.1 (List.mem_of_getElem? ha')
    cases hown
    rw [List.mem_singleton.1 hb, List.mem_singleton.1 hb']
    show "shared" ≠ "own"
    decide
  · intro b hb hid
    rw [← hmem] at hb
    simp only [List.mem_cons, List.not_mem_nil, or_false] at hb
    rcases hb with rfl | rfl
    · exact absurd hid (by decide)
    · exact absurd hid (by decide)

/-- A kind that defines a function of the prelude under the identity of the prelude. -/
def usurping : Script where
  name := "tick"
  kindBlocks :=
    [⟨"fusejit.prelude", "static int fusejit_numel(void) \x7b return 1; \x7d", ["fusejit_numel"], []⟩]
  extents := some [[]]
  body := .steps []

theorem plain_usurping : usurping.Plain where
  kindBlocks := List.forall_mem_singleton.2 ⟨rfl, Text.plain_ofList (by decide)⟩
  appBlocks := by simp [usurping]
  extents := by simp [usurping]
  body _ := Text.plain_ofList (by decide)
  initCode := by simp [usurping]

/-- A function that is defined for the kind and for its application, and one that the prelude defines too:
both graphs have modules. -/
theorem not_unambiguous :
    ((defining "shared").alone.Finished ∧ ∃ m blocks, assemble (defining "shared").alone = .ok m ∧
      globalBlocks (defining "shared").alone = .ok blocks ∧ blocks.map (·.id) = ["shared", "shared"] ∧
      blocks.map (·.symbols) = [["shared"], ["shared"]] ∧ ¬ Unambiguous blocks) ∧
    (usurping.alone.Finished ∧ ∃ m blocks, assemble usurping.alone = .ok m ∧
      globalBlocks usurping.alone = .ok blocks ∧ blocks.map (·.symbols) = [["fusejit_numel"]] ∧
      "fusejit_numel" ∈ Module.reservedSymbols ∧ ¬ Unambiguous blocks) := by
  have hplain : (defining "shared").Plain := plain_defining (Text.plain_ofList (by decide))
  obtain ⟨m, hm⟩ := hplain.assemble_alone (by decide +kernel)
  obtain ⟨m', hm'⟩ := plain_usurping.assemble_alone (by decide +kernel)
  have hblocks : globalBlocks (defining "shared").alone =
      .ok [constant "shared" "1", constant "shared" "2"] := by rfl
  have hblocks' : globalBlocks usurping.alone = .ok usurping.kindBlocks := by rfl
  refine ⟨⟨(defining "shared").finished_alone, m, _, hm, hblocks, rfl, rfl, ?_⟩,
    ⟨usurping.finished_alone, m', _, hm', hblocks', rfl, by decide, ?_⟩⟩
  · intro h
    exact absurd h.ids (by decide)
  · intro h
    exact h.reserved _ (List.mem_singleton_self _) "fusejit_numel" (List.mem_singleton_self _) (by decide)

end Assembly

end OpFusion
