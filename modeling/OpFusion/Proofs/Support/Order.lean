/-
  The order of a set of global blocks.

  A block needs the blocks of the set that it depends on, unless they are emitted before (`Needs`). A visit
  adds only what its block needs, directly or not, and lists nothing before what it needs (`visit_lists`).
  A path of waiting blocks has no identity twice, so there are never more of them than blocks: visits end
  with room to spare (`visit_fuel`). So a set has an order if and only if all that is needed is there and
  no block needs itself (`ordered_iff`), and a block is listed early only where it is needed.
-/
import OpFusion.Proofs.Support

namespace OpFusion.Support

open Relation (ReflTransGen TransGen)

/-! ## Sets and what their blocks need -/

/-- A set into which all blocks were put one by one; what symbols others own may change in between. -/
inductive Built : SupportSet → Prop
  | empty : Built []
  | insert {blocks blocks' : SupportSet} {table table' : SymbolTable} {block : SupportBlock}
      {owner : String} (hbuilt : Built blocks)
      (hinsert : insert blocks table block owner = .ok (blocks', table')) : Built blocks'

/-- A block depends on another one of the set that is not emitted. -/
def Needs (blocks : SupportSet) (emitted : List String) (b c : SupportBlock) : Prop :=
  c ∈ blocks ∧ c.id ∈ b.after ∧ c.id ∉ emitted

/-- Whatever a block depends on is emitted or in the set. -/
def Complete (blocks : SupportSet) (emitted : List String) : Prop :=
  ∀ b ∈ blocks, ∀ d ∈ b.after, d ∈ emitted ∨ d ∈ blocks.map (·.id)

/-- No block needs itself, directly or through others. -/
def Acyclic (blocks : SupportSet) (emitted : List String) : Prop :=
  ∀ b, ¬ TransGen (Needs blocks emitted) b b

variable {blocks : SupportSet} {emitted path : List String} {order order' : List SupportBlock}
  {b c block : SupportBlock} {fuel : Nat}

theorem Built.ids (h : Built blocks) : (blocks.map (·.id)).Nodup := by
  induction h with
  | empty => simp
  | insert hbuilt hinsert ih =>
    rcases insert_eq_ok hinsert with ⟨-, rfl, -⟩ | ⟨hnew, rfl, -⟩
    · exact ih
    · rw [List.map_append, List.map_singleton, List.nodup_append_comm, List.singleton_append,
        List.nodup_cons]
      exact ⟨hnew, ih⟩

theorem Built.insertAll {blocks' new : SupportSet} {table table' : SymbolTable} {owner : String}
    (h : Built blocks) (hinsert : insertAll blocks table owner new = .ok (blocks', table')) :
    Built blocks' := by
  induction new generalizing blocks table with
  | nil =>
    cases hinsert
    exact h
  | cons block new ih =>
    rw [Support.insertAll] at hinsert
    split at hinsert
    · next hfirst => exact ih (h.insert hfirst) hinsert
    · cases hinsert

/-- The block of an identity. -/
theorem exists_find {d : String} (h : d ∈ blocks.map (·.id)) :
    ∃ needed, blocks.find? (·.id = d) = some needed := by
  rw [← Option.isSome_iff_exists, List.find?_isSome]
  obtain ⟨b, hb, rfl⟩ := List.mem_map.1 h
  exact ⟨b, hb, by simp⟩

theorem needs_of_find {d : String} (hd : d ∈ block.after) (hemitted : d ∉ emitted)
    {needed : SupportBlock} (hfind : blocks.find? (·.id = d) = some needed) :
    Needs blocks emitted block needed ∧ needed.id = d := by
  have hid : needed.id = d := by simpa using List.find?_some hfind
  subst hid
  exact ⟨⟨List.mem_of_find?_eq_some hfind, hd, hemitted⟩, rfl⟩

/-! ## What a visit lists -/

/-- Each block stands after all that it depends on and that is not emitted. -/
def Settled (emitted : List String) (order : List SupportBlock) : Prop :=
  ∀ l₁ b l₂, order = l₁ ++ b :: l₂ → ∀ d ∈ b.after, d ∈ emitted ∨ d ∈ l₁.map (·.id)

theorem settled_nil : Settled emitted [] := by
  intro l₁ b l₂ h
  simp at h

theorem Settled.concat (h : Settled emitted order)
    (hblock : ∀ d ∈ block.after, d ∈ emitted ∨ d ∈ order.map (·.id)) :
    Settled emitted (order ++ [block]) := by
  intro l₁ b l₂ heq
  rcases List.eq_nil_or_concat l₂ with rfl | ⟨l₂, last, rfl⟩
  · obtain ⟨rfl, hlast⟩ := List.append_inj' heq rfl
    cases hlast
    exact hblock
  · rw [List.concat_eq_append, ← List.cons_append, ← List.append_assoc] at heq
    exact h l₁ b l₂ (List.append_inj' heq rfl).1

/-- An order that goes on with blocks that `reached` allows, and stays settled. -/
structure Lists (emitted : List String) (reached : SupportBlock → Prop)
    (order order' : List SupportBlock) : Prop where
  settled : Settled emitted order → Settled emitted order'
  added : ∃ added, order' = order ++ added ∧ ∀ x ∈ added, reached x

theorem Lists.refl (reached : SupportBlock → Prop) (order : List SupportBlock) :
    Lists emitted reached order order := ⟨id, [], by simp, by simp⟩

theorem Lists.trans {reached : SupportBlock → Prop} {order'' : List SupportBlock}
    (h : Lists emitted reached order order') (h' : Lists emitted reached order' order'') :
    Lists emitted reached order order'' := by
  obtain ⟨added, rfl, hadded⟩ := h.added
  obtain ⟨more, rfl, hmore⟩ := h'.added
  exact ⟨h'.settled ∘ h.settled, added ++ more, by simp, List.forall_mem_append.2 ⟨hadded, hmore⟩⟩

theorem Lists.mono {reached reached' : SupportBlock → Prop} (h : Lists emitted reached order order')
    (himp : ∀ x, reached x → reached' x) : Lists emitted reached' order order' := by
  obtain ⟨added, rfl, hadded⟩ := h.added
  exact ⟨h.settled, added, rfl, fun x hx => himp x (hadded x hx)⟩

theorem Lists.mem_ids {reached : SupportBlock → Prop} (h : Lists emitted reached order order')
    {d : String} (hd : d ∈ order.map (·.id)) : d ∈ order'.map (·.id) := by
  obtain ⟨added, rfl, -⟩ := h.added
  rw [List.map_append]
  exact List.mem_append_left _ hd

/-- The order after a dependency of a block. -/
def serve (blocks : SupportSet) (emitted : List String) (fuel : Nat) (block : SupportBlock)
    (path : List String) (order : List SupportBlock) (dependency : String) :
    Except Fault (List SupportBlock) :=
  if dependency ∈ emitted then .ok order
  else match blocks.find? (·.id = dependency) with
    | none => .error (.unknownBlock block.id dependency)
    | some needed => visit blocks emitted fuel needed (block.id :: path) order

theorem visit_succ (blocks : SupportSet) (emitted : List String) (fuel : Nat) (block : SupportBlock)
    (path : List String) (order : List SupportBlock) :
    visit blocks emitted (fuel + 1) block path order =
      if block.id ∈ order.map (·.id) then .ok order
      else if block.id ∈ path then .error (.cycle block.id)
      else block.after.foldlM (serve blocks emitted fuel block path) order >>= fun order =>
        .ok (order ++ [block]) := rfl

/-- **A visit lists what its block needs, and nothing before what that needs.** -/
theorem visit_lists (hblock : block ∈ blocks)
    (h : visit blocks emitted fuel block path order = .ok order') :
    Lists emitted (ReflTransGen (Needs blocks emitted) block) order order' := by
  induction fuel generalizing block path order order' with
  | zero => cases h
  | succ fuel ih =>
    rw [visit_succ] at h
    split at h
    · cases h
      exact .refl _ _
    split at h
    · cases h
    obtain ⟨order₁, hdeps, h⟩ := Outcome.bind_eq_ok.1 h
    cases h
    have hserve : ∀ d ∈ block.after, ∀ o o', serve blocks emitted fuel block path o d = .ok o' →
        Lists emitted (TransGen (Needs blocks emitted) block) o o' ∧
          (d ∈ emitted ∨ d ∈ o'.map (·.id)) := by
      intro d hd o o' hserve
      unfold serve at hserve
      split at hserve
      · next hemitted =>
        cases hserve
        exact ⟨.refl _ _, Or.inl hemitted⟩
      · next hemitted =>
        split at hserve
        · cases hserve
        · next needed hfind =>
          obtain ⟨hneeds, rfl⟩ := needs_of_find hd hemitted hfind
          exact ⟨(ih hneeds.1 hserve).mono fun x hx => TransGen.head' hneeds hx,
            Or.inr (visit_adds hneeds.1 hserve).2⟩
    obtain ⟨hlists, hserved⟩ := Outcome.foldlM_rel
      (R := Lists emitted (TransGen (Needs blocks emitted) block))
      (P := fun d o => d ∈ emitted ∨ d ∈ o.map (·.id))
      (Lists.refl _) Lists.trans (fun h hd => hd.imp_right h.mem_ids) hserve hdeps
    obtain ⟨added, rfl, hadded⟩ := hlists.added
    refine ⟨fun hsettled => (hlists.settled hsettled).concat hserved, added ++ [block], by simp, ?_⟩
    rw [List.forall_mem_append]
    exact ⟨fun x hx => (hadded x hx).to_reflTransGen, by simp [ReflTransGen.refl]⟩

/-! ## Visits end -/

/-- Identities of blocks that wait for one another. -/
structure Path (blocks : SupportSet) (path : List String) : Prop where
  nodup : path.Nodup
  mem : ∀ i ∈ path, i ∈ blocks.map (·.id)

theorem Path.nil : Path blocks [] := ⟨by simp, by simp⟩

theorem Path.cons (h : Path blocks path) (hblock : block ∈ blocks) (hwaiting : block.id ∉ path) :
    Path blocks (block.id :: path) :=
  ⟨List.nodup_cons.2 ⟨hwaiting, h.nodup⟩, List.forall_mem_cons.2 ⟨List.mem_map_of_mem hblock, h.mem⟩⟩

theorem Path.length_le (h : Path blocks path) : path.length ≤ blocks.length := by
  have hle := (List.subperm_of_subset h.nodup h.mem).length_le
  rwa [List.length_map] at hle

/-- **No visit runs out of room**: with more room it comes to the same. -/
theorem visit_fuel {fuel' : Nat} (hblock : block ∈ blocks) (hpath : Path blocks path)
    (hfuel : blocks.length < fuel + path.length) (hfuel' : blocks.length < fuel' + path.length)
    (order : List SupportBlock) :
    visit blocks emitted fuel block path order = visit blocks emitted fuel' block path order := by
  have hlength := hpath.length_le
  induction fuel generalizing fuel' block path order with
  | zero => omega
  | succ fuel ih =>
    cases fuel' with
    | zero => omega
    | succ fuel' =>
      rw [visit_succ, visit_succ]
      split
      · rfl
      split
      · rfl
      next hwaiting =>
        have hpath' := hpath.cons hblock hwaiting
        rw [Outcome.foldlM_congr fun d hd o => ?_]
        unfold serve
        split
        · rfl
        split
        · rfl
        · next needed hfind =>
          have hlonger : (block.id :: path).length = path.length + 1 := List.length_cons
          exact ih (List.mem_of_find?_eq_some hfind) hpath' (by omega) (by omega) o hpath'.length_le

/-! ## Which sets have an order -/

/-- The blocks that wait for a block all need it. -/
def Awaited (blocks : SupportSet) (emitted path : List String) (block : SupportBlock) : Prop :=
  ∀ i ∈ path, ∃ b ∈ blocks, b.id = i ∧ TransGen (Needs blocks emitted) b block

theorem Awaited.cons {needed : SupportBlock} (h : Awaited blocks emitted path block)
    (hblock : block ∈ blocks) (hneeds : Needs blocks emitted block needed) :
    Awaited blocks emitted (block.id :: path) needed := by
  refine List.forall_mem_cons.2 ⟨⟨block, hblock, rfl, .single hneeds⟩, ?_⟩
  intro i hi
  obtain ⟨b, hb, hid, hb'⟩ := h i hi
  exact ⟨b, hb, hid, hb'.tail hneeds⟩

theorem visit_ok (hids : (blocks.map (·.id)).Nodup) (hcomplete : Complete blocks emitted)
    (hacyclic : Acyclic blocks emitted) (hblock : block ∈ blocks) (hpath : Path blocks path)
    (hawaited : Awaited blocks emitted path block) (hfuel : blocks.length < fuel + path.length)
    (order : List SupportBlock) : ∃ order', visit blocks emitted fuel block path order = .ok order' := by
  have hlength := hpath.length_le
  induction fuel generalizing block path order with
  | zero => omega
  | succ fuel ih =>
    rw [visit_succ]
    split
    · exact ⟨order, rfl⟩
    -- a block that waits for itself would be on a cycle
    have hwaiting : block.id ∉ path := by
      intro hi
      obtain ⟨b, hb, hid, hneeds⟩ := hawaited _ hi
      rw [List.inj_on_of_nodup_map hids hb hblock hid] at hneeds
      exact hacyclic block hneeds
    have hpath' := hpath.cons hblock hwaiting
    have hserve : ∀ d ∈ block.after, ∀ o, ∃ o', serve blocks emitted fuel block path o d = .ok o' := by
      intro d hd o
      unfold serve
      split
      · exact ⟨o, rfl⟩
      · next hemitted =>
        obtain ⟨needed, hfind⟩ := exists_find ((hcomplete block hblock d hd).resolve_left hemitted)
        obtain ⟨hneeds, -⟩ := needs_of_find hd hemitted hfind
        rw [hfind]
        have hlonger : (block.id :: path).length = path.length + 1 := List.length_cons
        exact ih hneeds.1 hpath' (hawaited.cons hblock hneeds) (by omega) o hpath'.length_le
    obtain ⟨order₁, hdeps⟩ := Outcome.foldlM_ok (s := order) hserve
    rw [if_neg hwaiting]
    exact ⟨order₁ ++ [block], Outcome.bind_eq_ok.2 ⟨order₁, hdeps, rfl⟩⟩

/-- In a settled order a block stands after what it needs. -/
theorem Settled.sublist (h : Settled emitted order) (hids : (blocks.map (·.id)).Nodup)
    (hperm : order.Perm blocks) (hb : b ∈ blocks) (hneeds : Needs blocks emitted b c) :
    [c, b].Sublist order := by
  obtain ⟨l₁, l₂, rfl⟩ := List.append_of_mem (hperm.mem_iff.2 hb)
  obtain ⟨hc, hafter, hemitted⟩ := hneeds
  obtain ⟨c', hc', hid⟩ := List.mem_map.1 ((h l₁ b l₂ rfl _ hafter).resolve_left hemitted)
  have hmem : c' ∈ blocks := hperm.mem_iff.1 (List.mem_append_left _ hc')
  rw [List.inj_on_of_nodup_map hids hmem hc hid] at hc'
  exact List.cons_sublist_iff.2 ⟨l₁, b :: l₂, rfl, hc', by simp⟩

theorem Settled.complete (h : Settled emitted order) (hperm : order.Perm blocks) :
    Complete blocks emitted := by
  intro b hb d hd
  obtain ⟨l₁, l₂, rfl⟩ := List.append_of_mem (hperm.mem_iff.2 hb)
  refine (h l₁ b l₂ rfl d hd).imp_right fun hd => ?_
  obtain ⟨c, hc, rfl⟩ := List.mem_map.1 hd
  exact List.mem_map_of_mem (hperm.mem_iff.1 (List.mem_append_left _ hc))

/-! ## Positions -/

theorem idxOf_lt_of_sublist (hnodup : order.Nodup) (h : [b, c].Sublist order) :
    order.idxOf b < order.idxOf c := by
  obtain ⟨l₁, l₂, rfl, hb, hc⟩ := List.cons_sublist_iff.1 h
  rw [List.singleton_sublist] at hc
  have hc' : c ∉ l₁ := fun hmem => List.disjoint_of_nodup_append hnodup hmem hc
  rw [List.idxOf_append_of_mem hb, List.idxOf_append_of_notMem hc']
  have := List.idxOf_lt_length_of_mem hb
  omega

theorem mem_of_transGen (h : TransGen (Needs blocks emitted) b c) : c ∈ blocks := by
  cases h with
  | single h => exact h.1
  | tail _ h => exact h.1

theorem Settled.acyclic (h : Settled emitted order) (hids : (blocks.map (·.id)).Nodup)
    (hperm : order.Perm blocks) : Acyclic blocks emitted := by
  have hnodup : order.Nodup := hperm.nodup_iff.2 hids.of_map
  have hearlier : ∀ b c, TransGen (Needs blocks emitted) b c → b ∈ blocks →
      order.idxOf c < order.idxOf b := by
    intro b c htrans hb
    induction htrans with
    | single hneeds => exact idxOf_lt_of_sublist hnodup (h.sublist hids hperm hb hneeds)
    | tail htrans hneeds ih =>
      have := idxOf_lt_of_sublist hnodup (h.sublist hids hperm (mem_of_transGen htrans) hneeds)
      omega
  intro b htrans
  exact absurd (hearlier b b htrans (mem_of_transGen htrans)) (lt_irrefl _)

/-! ## The order of a set -/

/-- What a run of visits lists, and for which of the blocks: a listed block is needed by one before which
all earlier ones are listed. -/
theorem exists_origin {bs : List SupportBlock} (hbs : ∀ b ∈ bs, b ∈ blocks)
    (h : bs.foldlM (fun o b => visit blocks emitted fuel b [] o) [] = .ok order) :
    (∀ b ∈ bs, b.id ∈ order.map (·.id)) ∧ Settled emitted order ∧
      ∀ x ∈ order, ∃ p r s o₁ o₂, bs = p ++ r :: s ∧ order = o₁ ++ o₂ ∧ x ∈ o₂ ∧
        (∀ b ∈ p, b.id ∈ o₁.map (·.id)) ∧ ReflTransGen (Needs blocks emitted) r x := by
  induction bs using List.reverseRecOn generalizing order with
  | nil =>
    cases h
    exact ⟨by simp, settled_nil, by simp⟩
  | append_singleton bs r ih =>
    rw [List.foldlM_append] at h
    obtain ⟨order₁, hfirst, hlast⟩ := Outcome.bind_eq_ok.1 h
    rw [List.foldlM_cons] at hlast
    obtain ⟨_, hvisit, hlast⟩ := Outcome.bind_eq_ok.1 hlast
    cases hlast
    rw [List.forall_mem_append, List.forall_mem_singleton] at hbs
    obtain ⟨hlisted, hsettled, horigin⟩ := ih hbs.1 hfirst
    have hlists := visit_lists hbs.2 hvisit
    have hr := (visit_adds hbs.2 hvisit).2
    refine ⟨?_, hlists.settled hsettled, ?_⟩
    · rw [List.forall_mem_append, List.forall_mem_singleton]
      exact ⟨fun b hb => hlists.mem_ids (hlisted b hb), hr⟩
    · obtain ⟨added, rfl, hadded⟩ := hlists.added
      rw [List.forall_mem_append]
      constructor
      · intro x hx
        obtain ⟨p, r', s, o₁, o₂, rfl, rfl, hx, hp, hneeds⟩ := horigin x hx
        exact ⟨p, r', s ++ [r], o₁, o₂ ++ added, by simp, by simp, by simp [hx], hp, hneeds⟩
      · intro x hx
        exact ⟨bs, r, [], order₁, added, rfl, rfl, hx, hlisted, hadded x hx⟩

/-- A block is listed before an earlier one only if it is needed by one that is not later. -/
theorem exists_needs_of_sublist (hids : (blocks.map (·.id)).Nodup)
    (h : ordered blocks emitted = .ok order) (hblocks : [b, c].Sublist blocks)
    (horder : [c, b].Sublist order) :
    ∃ a, (a = b ∨ [a, b].Sublist blocks) ∧ TransGen (Needs blocks emitted) a c := by
  have hperm := ordered_perm hids h
  have hnodup : order.Nodup := hperm.nodup_iff.2 hids.of_map
  have hc : c ∈ order := horder.subset (by simp)
  have hb : b ∈ blocks := hblocks.subset (by simp)
  obtain ⟨-, -, horigin⟩ := exists_origin (fun b hb => hb) h
  obtain ⟨p, a, s, o₁, o₂, hsplit, rfl, hc, hp, hneeds⟩ := horigin c hc
  -- what was visited before `a` is listed before `c`, and `b` is not
  have hbp : b ∉ p := by
    intro hmem
    obtain ⟨b', hb', hid⟩ := List.mem_map.1 (hp b hmem)
    have hb'' : b' ∈ blocks := hperm.mem_iff.1 (List.mem_append_left _ hb')
    rw [List.inj_on_of_nodup_map hids hb'' hb hid] at hb'
    have hbefore : [b, c].Sublist (o₁ ++ o₂) :=
      List.cons_sublist_iff.2 ⟨o₁, o₂, rfl, hb', List.singleton_sublist.2 hc⟩
    have := idxOf_lt_of_sublist hnodup hbefore
    have := idxOf_lt_of_sublist hnodup horder
    omega
  have hb' : b = a ∨ b ∈ s := by
    rw [hsplit, List.mem_append, List.mem_cons] at hb
    exact hb.resolve_left hbp
  have hab : a = b ∨ [a, b].Sublist blocks := by
    refine hb'.imp Eq.symm fun hs => ?_
    rw [hsplit]
    exact (List.cons_sublist_cons.2 (List.singleton_sublist.2 hs)).trans (List.sublist_append_right _ _)
  refine ⟨a, hab, ?_⟩
  rcases ReflTransGen.cases_head hneeds with rfl | ⟨d, had, hdc⟩
  · -- `c` is later than `b`, so that it is not `a` itself
    have hidx := idxOf_lt_of_sublist hids.of_map hblocks
    rcases hab with rfl | hab
    · omega
    · have := idxOf_lt_of_sublist hids.of_map hab
      omega
  · exact TransGen.head' had hdc

/-- **A set of blocks is ordered if and only if that is possible.** Visits end within a depth of one more
than there are blocks. There is an order if and only if all that blocks depend on is emitted or in the set
and no block needs itself. The order then has each block once and after what it needs, and a block that is
listed before an earlier one is needed, directly or not, by one that is no later than that. -/
theorem ordered_iff (h : Built blocks) (emitted : List String) :
    (∀ fuel, blocks.length < fuel →
      blocks.foldlM (fun order block => visit blocks emitted fuel block [] order) [] =
        ordered blocks emitted) ∧
    ((∃ order, ordered blocks emitted = .ok order) ↔
      Complete blocks emitted ∧ Acyclic blocks emitted) ∧
    ∀ order, ordered blocks emitted = .ok order →
      order.Perm blocks ∧
      (∀ b ∈ blocks, ∀ c, Needs blocks emitted b c → [c, b].Sublist order) ∧
      ∀ b c, [b, c].Sublist blocks → [c, b].Sublist order →
        ∃ a, (a = b ∨ [a, b].Sublist blocks) ∧ TransGen (Needs blocks emitted) a c := by
  have hids := h.ids
  have hsettled : ∀ order, ordered blocks emitted = .ok order → Settled emitted order :=
    fun order horder => (exists_origin (fun b hb => hb) horder).2.1
  refine ⟨fun fuel hfuel => ?_, ⟨?_, ?_⟩, fun order horder => ⟨ordered_perm hids horder, ?_, ?_⟩⟩
  · exact Outcome.foldlM_congr fun b hb o => visit_fuel hb .nil (by simpa using hfuel) (by simp) o
  · rintro ⟨order, horder⟩
    have hperm := ordered_perm hids horder
    exact ⟨(hsettled order horder).complete hperm, (hsettled order horder).acyclic hids hperm⟩
  · rintro ⟨hcomplete, hacyclic⟩
    exact Outcome.foldlM_ok fun b hb o =>
      visit_ok hids hcomplete hacyclic hb .nil (by simp [Awaited]) (by simp) o
  · intro b hb c hneeds
    exact (hsettled order horder).sublist hids (ordered_perm hids horder) hb hneeds
  · intro b c hblocks hpair
    exact exists_needs_of_sublist hids horder hblocks hpair

/-- A block that needs two others, of which one needs the other, and one that needs nothing. -/
def layers : SupportSet :=
  [⟨"top", "", [], ["middle", "base"]⟩, ⟨"apart", "", [], []⟩, ⟨"middle", "", [], ["base", "prelude"]⟩,
    ⟨"base", "", [], ["prelude"]⟩]

/-- What the first block needs is moved before it, and thereby before the second one. -/
theorem ordered_layers :
    Built layers ∧ Complete layers ["prelude"] ∧ Acyclic layers ["prelude"] ∧
    ordered layers ["prelude"] = .ok
      [⟨"base", "", [], ["prelude"]⟩, ⟨"middle", "", [], ["base", "prelude"]⟩,
        ⟨"top", "", [], ["middle", "base"]⟩, ⟨"apart", "", [], []⟩] ∧
    ∃ a, (a = ⟨"apart", "", [], []⟩ ∨ [a, ⟨"apart", "", [], []⟩].Sublist layers) ∧
      TransGen (Needs layers ["prelude"]) a ⟨"base", "", [], ["prelude"]⟩ := by
  have hinsert : insertAll [] [] "kinds" layers = .ok (layers, []) := by decide
  have hbuilt : Built layers := Built.empty.insertAll hinsert
  obtain ⟨-, hiff, horder⟩ := ordered_iff hbuilt ["prelude"]
  have hordered : ordered layers ["prelude"] = .ok
      [⟨"base", "", [], ["prelude"]⟩, ⟨"middle", "", [], ["base", "prelude"]⟩,
        ⟨"top", "", [], ["middle", "base"]⟩, ⟨"apart", "", [], []⟩] := by decide
  obtain ⟨hcomplete, hacyclic⟩ := hiff.1 ⟨_, hordered⟩
  refine ⟨hbuilt, hcomplete, hacyclic, hordered, ?_⟩
  exact (horder _ hordered).2.2 _ _ (by decide) (by decide)

end OpFusion.Support
