/-
  Sets of global blocks: what is collected, and in which order it is listed.

  A set holds one block per identity and the table knows the owner of each of its symbols (`Owned`), and
  no later block takes a symbol away (`Keeps`). The order of a set lists each of its blocks once
  (`ordered_perm`): while a block waits for those it depends on, none of its identity is listed.
-/
import OpFusion.Proofs.Outcome
import OpFusion.Support
import OpFusion.Table

namespace OpFusion.Support

variable {blocks blocks' new : SupportSet} {table table' table'' : SymbolTable} {owner : String}

/-! ## Collecting -/

/-- Every symbol with an owner keeps it. -/
def Keeps (table table' : SymbolTable) : Prop :=
  ∀ symbol id, table.lookup symbol = some id → table'.lookup symbol = some id

theorem Keeps.refl (table : SymbolTable) : Keeps table table := fun _ _ h => h

theorem Keeps.trans (h : Keeps table table') (h' : Keeps table' table'') : Keeps table table'' :=
  fun symbol id hid => h' symbol id (h symbol id hid)

theorem claimSymbol_eq_ok {id symbol : String} (h : claimSymbol id owner table symbol = .ok table') :
    Keeps table table' ∧ table'.lookup symbol = some id := by
  have hclaim : table' = (symbol, id) :: table ∧
      ∀ other, table.lookup symbol = some other → other = id := by
    unfold claimSymbol at h
    split at h
    · next other hother =>
      split at h
      · next hid =>
        cases h
        refine ⟨rfl, ?_⟩
        rintro _ hlookup
        rw [hother] at hlookup
        cases hlookup
        exact hid
      · cases h
    · next hnone =>
      cases h
      refine ⟨rfl, ?_⟩
      rintro _ hlookup
      rw [hnone] at hlookup
      cases hlookup
  obtain ⟨rfl, hsame⟩ := hclaim
  refine ⟨fun s o ho => ?_, by simp⟩
  rw [Table.lookup_pair]
  split
  · next hs =>
    subst hs
    rw [hsame o ho]
  · exact ho

theorem claimSymbols_eq_ok {id : String} {symbols : List String}
    (h : symbols.foldlM (claimSymbol id owner) table = .ok table') :
    Keeps table table' ∧ ∀ symbol ∈ symbols, table'.lookup symbol = some id := by
  induction symbols generalizing table with
  | nil =>
    cases h
    exact ⟨.refl _, by simp⟩
  | cons symbol symbols ih =>
    rw [List.foldlM_cons] at h
    obtain ⟨table₁, hclaim, hrest⟩ := Outcome.bind_eq_ok.1 h
    obtain ⟨hkeeps, hmine⟩ := claimSymbol_eq_ok hclaim
    obtain ⟨hkeeps', hothers⟩ := ih hrest
    refine ⟨hkeeps.trans hkeeps', ?_⟩
    intro s hs
    rcases List.mem_cons.1 hs with rfl | hs
    · exact hkeeps' s id hmine
    · exact hothers s hs

/-- A block that is put into a set is there already, or is new with its identity and owns its symbols. -/
theorem insert_eq_ok {block : SupportBlock} (h : insert blocks table block owner = .ok (blocks', table')) :
    (block ∈ blocks ∧ blocks' = blocks ∧ table' = table) ∨
      (block.id ∉ blocks.map (·.id) ∧ blocks' = blocks ++ [block] ∧
        block.symbols.foldlM (claimSymbol block.id owner) table = .ok table') := by
  unfold insert at h
  split at h
  · next existing hfind =>
    split at h
    · next hsame =>
      cases h
      exact Or.inl ⟨hsame ▸ List.mem_of_find?_eq_some hfind, rfl, rfl⟩
    · cases h
  · next hfind =>
    split at h
    · next table₁ hclaim =>
      cases h
      refine Or.inr ⟨?_, rfl, hclaim⟩
      simpa using hfind
    · cases h

/-- The blocks of a set have distinct identities, and own their symbols. -/
structure Owned (blocks : SupportSet) (table : SymbolTable) : Prop where
  ids : (blocks.map (·.id)).Nodup
  symbols : ∀ b ∈ blocks, ∀ s ∈ b.symbols, table.lookup s = some b.id

theorem Owned.mono (h : Owned blocks table) (hkeeps : Keeps table table') : Owned blocks table' :=
  ⟨h.ids, fun b hb s hs => hkeeps s b.id (h.symbols b hb s hs)⟩

theorem Owned.insert {block : SupportBlock} (h : Owned blocks table)
    (hinsert : insert blocks table block owner = .ok (blocks', table')) :
    Owned blocks' table' ∧ Keeps table table' := by
  rcases insert_eq_ok hinsert with ⟨-, rfl, rfl⟩ | ⟨hnew, rfl, hclaim⟩
  · exact ⟨h, .refl _⟩
  · obtain ⟨hkeeps, hmine⟩ := claimSymbols_eq_ok hclaim
    refine ⟨⟨?_, ?_⟩, hkeeps⟩
    · rw [List.map_append, List.map_singleton, List.nodup_append_comm, List.singleton_append,
        List.nodup_cons]
      exact ⟨hnew, h.ids⟩
    · intro b hb s hs
      rcases List.mem_append.1 hb with hb | hb
      · exact (h.mono hkeeps).symbols b hb s hs
      · rw [List.mem_singleton.1 hb] at hs ⊢
        exact hmine s hs

theorem Owned.insertAll (h : Owned blocks table)
    (hinsert : insertAll blocks table owner new = .ok (blocks', table')) :
    Owned blocks' table' ∧ Keeps table table' := by
  induction new generalizing blocks table with
  | nil =>
    cases hinsert
    exact ⟨h, .refl _⟩
  | cons block new ih =>
    rw [Support.insertAll] at hinsert
    split at hinsert
    · next blocks₁ table₁ hfirst =>
      obtain ⟨howned, hkeeps⟩ := h.insert hfirst
      obtain ⟨howned', hkeeps'⟩ := ih howned hinsert
      exact ⟨howned', hkeeps.trans hkeeps'⟩
    · cases hinsert

theorem mem_insert {block : SupportBlock} (h : insert blocks table block owner = .ok (blocks', table'))
    {b : SupportBlock} : b ∈ blocks' ↔ b ∈ blocks ∨ b = block := by
  rcases insert_eq_ok h with ⟨hmem, rfl, -⟩ | ⟨-, rfl, -⟩
  · constructor
    · exact Or.inl
    · rintro (hb | rfl)
      · exact hb
      · exact hmem
  · simp

/-- **A set holds what was there and what was put into it.** -/
theorem mem_insertAll (h : insertAll blocks table owner new = .ok (blocks', table'))
    {b : SupportBlock} : b ∈ blocks' ↔ b ∈ blocks ∨ b ∈ new := by
  induction new generalizing blocks table with
  | nil =>
    cases h
    simp
  | cons block new ih =>
    rw [insertAll] at h
    split at h
    · next blocks₁ table₁ hinsert =>
      rw [ih h, mem_insert hinsert, List.mem_cons, or_assoc]
    · cases h

/-! ## Listing -/

/-- Blocks that may follow in an order: they are from the set, each under an identity of its own that
neither stands in the order nor waits. -/
structure Adds (blocks : SupportSet) (waiting : List String) (order added : List SupportBlock) :
    Prop where
  mem : ∀ b ∈ added, b ∈ blocks
  listed : ∀ b ∈ added, b.id ∉ order.map (·.id)
  waiting : ∀ b ∈ added, b.id ∉ waiting
  nodup : (added.map (·.id)).Nodup

variable {waiting emitted : List String} {order order' added more : List SupportBlock}

theorem Adds.nil : Adds blocks waiting order [] := ⟨by simp, by simp, by simp, by simp⟩

theorem Adds.append (h : Adds blocks waiting order added)
    (h' : Adds blocks waiting (order ++ added) more) : Adds blocks waiting order (added ++ more) := by
  refine ⟨List.forall_mem_append.2 ⟨h.mem, h'.mem⟩, List.forall_mem_append.2 ⟨h.listed, ?_⟩,
    List.forall_mem_append.2 ⟨h.waiting, h'.waiting⟩, ?_⟩
  · intro b hb hlisted
    exact h'.listed b hb (by rw [List.map_append]; exact List.mem_append_left _ hlisted)
  · rw [List.map_append, List.nodup_append]
    refine ⟨h.nodup, h'.nodup, ?_⟩
    rintro i hi j hj rfl
    obtain ⟨b, hb, rfl⟩ := List.mem_map.1 hj
    exact h'.listed b hb (by rw [List.map_append]; exact List.mem_append_right _ hi)

/-- Steps that each add blocks to an order, and thereby serve an item, do so together. -/
theorem adds_of_foldlM {α : Type} {f : List SupportBlock → α → Except Fault (List SupportBlock)}
    {P : α → List SupportBlock → Prop}
    (hmono : ∀ x order more, P x order → P x (order ++ more)) {xs : List α}
    (hf : ∀ x ∈ xs, ∀ order order', f order x = .ok order' →
      (∃ added, order' = order ++ added ∧ Adds blocks waiting order added) ∧ P x order')
    (h : xs.foldlM f order = .ok order') :
    (∃ added, order' = order ++ added ∧ Adds blocks waiting order added) ∧
      ∀ x ∈ xs, P x order' := by
  refine Outcome.foldlM_rel (R := fun o o' => ∃ added, o' = o ++ added ∧ Adds blocks waiting o added)
    (fun o => ⟨[], by simp, .nil⟩) ?_ ?_ hf h
  · rintro o _ _ ⟨added, rfl, hadds⟩ ⟨more, rfl, hmore⟩
    exact ⟨added ++ more, by rw [List.append_assoc], hadds.append hmore⟩
  · rintro x o _ ⟨added, rfl, -⟩ hserved
    exact hmono x o added hserved

/-- **A visit lists a block, and before it only blocks that were not listed and do not wait.** -/
theorem visit_adds {fuel : Nat} {block : SupportBlock} (hblock : block ∈ blocks)
    (h : visit blocks emitted fuel block waiting order = .ok order') :
    (∃ added, order' = order ++ added ∧ Adds blocks waiting order added) ∧
      block.id ∈ order'.map (·.id) := by
  induction fuel generalizing block waiting order order' with
  | zero => cases h
  | succ fuel ih =>
    rw [visit] at h
    split at h
    · next hlisted =>
      cases h
      exact ⟨⟨[], by simp, .nil⟩, hlisted⟩
    split at h
    · cases h
    next hlisted hwaiting =>
      obtain ⟨order₁, hdeps, h⟩ := Outcome.bind_eq_ok.1 h
      cases h
      -- below this block its own identity waits too, so that it is still unlisted at the end
      obtain ⟨⟨added, rfl, hadds⟩, -⟩ : (∃ added, order₁ = order ++ added ∧
          Adds blocks (block.id :: waiting) order added) ∧ ∀ i ∈ block.after, True := by
        refine adds_of_foldlM (P := fun _ _ => True) (fun _ _ _ _ => trivial)
          (fun dependency _ o o' hstep => ?_) hdeps
        refine ⟨?_, trivial⟩
        split at hstep
        · cases hstep
          exact ⟨[], by simp, .nil⟩
        · split at hstep
          · cases hstep
          · next needed hfind => exact (ih (List.mem_of_find?_eq_some hfind) hstep).1
      refine ⟨⟨added ++ [block], by rw [List.append_assoc], ?_⟩, by simp⟩
      have hunlisted : block.id ∉ (order ++ added).map (·.id) := by
        rw [List.map_append, List.mem_append]
        rintro (hid | hid)
        · exact hlisted hid
        · obtain ⟨b, hb, hid⟩ := List.mem_map.1 hid
          exact hadds.waiting b hb (by simp [hid])
      have hbefore : Adds blocks waiting order added :=
        ⟨hadds.mem, hadds.listed, fun b hb hw => hadds.waiting b hb (by simp [hw]), hadds.nodup⟩
      refine hbefore.append ⟨?_, ?_, ?_, by simp⟩
      · simpa using hblock
      · simpa using hunlisted
      · simpa using hwaiting

theorem ordered_adds (h : ordered blocks emitted = .ok order) :
    Adds blocks [] [] order ∧ ∀ b ∈ blocks, b.id ∈ order.map (·.id) := by
  obtain ⟨⟨added, hadded, hadds⟩, hall⟩ := adds_of_foldlM
    (P := fun b o => b.id ∈ o.map (·.id))
    (fun b o more hb => by rw [List.map_append]; exact List.mem_append_left _ hb)
    (fun b hb o o' hvisit => visit_adds hb hvisit) h
  rw [List.nil_append] at hadded
  exact ⟨hadded ▸ hadds, hall⟩

/-- **The order of a set lists each of its blocks once.** -/
theorem ordered_perm (hids : (blocks.map (·.id)).Nodup) (h : ordered blocks emitted = .ok order) :
    order.Perm blocks := by
  obtain ⟨hadds, hall⟩ := ordered_adds h
  refine (List.perm_ext_iff_of_nodup hadds.nodup.of_map hids.of_map).2 fun b => ?_
  refine ⟨hadds.mem b, fun hb => ?_⟩
  obtain ⟨b', hb', hid⟩ := List.mem_map.1 (hall b hb)
  rwa [← List.inj_on_of_nodup_map hids (hadds.mem b' hb') hb hid]

end OpFusion.Support
