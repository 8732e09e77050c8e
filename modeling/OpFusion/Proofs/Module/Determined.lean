/-
  The manifest determines the text.

  The text of a module shows the slots of variables, the signatures of applications and what their kinds
  write for them. The signatures say which variables there are and what the kinds are told, so two
  modules of one manifest have one text if kinds of the same name, parameters and version write the same
  (`Assembly.source_eq`).
-/
import OpFusion.Proofs.Module.Manifest
import OpFusion.Proofs.Module.Plans
import OpFusion.Proofs.Support

namespace OpFusion

/-- Kinds that write the same for every application. -/
structure OpKind.SameFragments (a b : OpKind) : Prop where
  kindBlocks : a.kindBlocks = b.kindBlocks
  appBlocks : ∀ c, a.appBlocks c = b.appBlocks c
  extents : ∀ c index, (a.extents c index).map (·.map Extent.text) =
    (b.extents c index).map (·.map Extent.text)
  body : ∀ c, (a.body c).map (Body.text c) = (b.body c).map (Body.text c)

/-! ## The wording of plans -/

/-- What the code of an output shows. -/
def OutputPlan.wording (o : OutputPlan) : Slot × VarDesc × List String :=
  (o.slot, o.desc, o.extents.map Extent.text)

/-- What the code of an application shows. -/
def Plan.wording (p : Plan) : Context × List Slot × List (Slot × VarDesc × List String) × String :=
  (p.context, p.inputs, p.outputs.map (·.wording), p.body.text p.context)

namespace Module

theorem outputPiece_congr {c : Context} {index : Nat} {o o' : OutputPlan}
    (h : o.wording = o'.wording) : outputPiece c index o = outputPiece c index o' := by
  obtain ⟨slot, desc, extents⟩ := o
  obtain ⟨slot', desc', extents'⟩ := o'
  simp only [OutputPlan.wording, Prod.mk.injEq] at h
  obtain ⟨rfl, rfl, hextents⟩ := h
  have hlength : extents.length = extents'.length := by simpa using congrArg List.length hextents
  have hempty : extents.isEmpty = extents'.isEmpty := by simpa using congrArg List.isEmpty hextents
  have hdeclaration : extentsDeclaration index extents = extentsDeclaration index extents' := by
    rw [extentsDeclaration, extentsDeclaration, hempty, hlength, hextents]
  simp only [outputPiece, hdeclaration]

theorem applicationPieces_congr {p p' : Plan} (h : p.wording = p'.wording) :
    applicationPieces p = applicationPieces p' := by
  obtain ⟨context, inputs, outputs, body⟩ := p
  obtain ⟨context', inputs', outputs', body'⟩ := p'
  simp only [Plan.wording, Prod.mk.injEq] at h
  obtain ⟨rfl, rfl, houtputs, hbody⟩ := h
  have hlength : outputs.length = outputs'.length := by simpa using congrArg List.length houtputs
  have hlines : (outputs.mapIdx fun index _ => "    fusejit_buffer* out" ++ toString index ++ ";") =
      outputs'.mapIdx fun index _ => "    fusejit_buffer* out" ++ toString index ++ ";" :=
    List.ext_getElem (by simp [hlength]) fun i h₁ h₂ => by simp
  have hpieces : (outputs.mapIdx fun index o => outputPiece context index o) =
      outputs'.mapIdx fun index o => outputPiece context index o := by
    refine List.ext_getElem (by simp [hlength]) fun i h₁ h₂ => ?_
    simp only [List.length_mapIdx] at h₁ h₂
    simp only [List.getElem_mapIdx]
    refine outputPiece_congr ?_
    have hi : (outputs.map (·.wording))[i]? = (outputs'.map (·.wording))[i]? := by rw [houtputs]
    simpa [h₁, h₂] using hi
  simp only [applicationPieces, applicationOpening, bodyPiece, hlines, hpieces, hbody]

theorem entryPieces_congr {plans plans' : List Plan}
    (h : plans.map (·.wording) = plans'.map (·.wording)) (inputs outputs temps : Nat) :
    entryPieces plans inputs outputs temps = entryPieces plans' inputs outputs temps := by
  have hpieces : plans.flatMap applicationPieces = plans'.flatMap applicationPieces := by
    induction plans generalizing plans' with
    | nil =>
      obtain rfl : plans' = [] := by simpa using h.symm
      rfl
    | cons p plans ih =>
      obtain ⟨p', plans'', rfl, hp, hrest⟩ := List.map_eq_cons_iff.1 h.symm
      rw [List.flatMap_cons, List.flatMap_cons, applicationPieces_congr hp.symm, ih hrest.symm]
  simp only [entryPieces, hpieces]

end Module

/-! ## Blocks -/

namespace Support

variable {blocks blocks₁ blocks₂ new : SupportSet} {table table' table₁ table₂ : SymbolTable}
  {owner owner' : String}

/-- The blocks of a set do not depend on who owns the symbols. -/
theorem insert_blocks {block : SupportBlock} (h : insert blocks table block owner = .ok (blocks₁, table₁))
    (h' : insert blocks table' block owner' = .ok (blocks₂, table₂)) : blocks₁ = blocks₂ := by
  rcases insert_eq_ok h with ⟨hmem, rfl, -⟩ | ⟨hnew, rfl, -⟩
  · rcases insert_eq_ok h' with ⟨-, rfl, -⟩ | ⟨hnew, -, -⟩
    · rfl
    · exact absurd (List.mem_map_of_mem hmem) hnew
  · rcases insert_eq_ok h' with ⟨hmem, -, -⟩ | ⟨-, rfl, -⟩
    · exact absurd (List.mem_map_of_mem hmem) hnew
    · rfl

theorem insertAll_blocks (h : insertAll blocks table owner new = .ok (blocks₁, table₁))
    (h' : insertAll blocks table' owner' new = .ok (blocks₂, table₂)) : blocks₁ = blocks₂ := by
  induction new generalizing blocks table table' with
  | nil =>
    cases h
    cases h'
    rfl
  | cons block new ih =>
    rw [insertAll] at h h'
    split at h
    · next b t hinsert =>
      split at h'
      · next b' t' hinsert' =>
        cases insert_blocks hinsert hinsert'
        exact ih h h'
      · cases h'
    · cases h

end Support

/-! ## Signatures -/

namespace Assembly

variable {g g' : Graph} {a a' : Application} {apps apps' : List Application} {p p' q q' : Progress}

/-- The signatures of applications that stand at a position and after it. -/
def signaturesFrom (g : Graph) : Nat → List Application → List Signature
  | _, [] => []
  | position, a :: apps =>
    signature g a (context g position a) :: signaturesFrom g (position + 1) apps

theorem signatures_of_foldlM (h : apps.foldlM (Progress.add g) p = .ok q) :
    q.signatures = p.signatures ++ signaturesFrom g p.signatures.length apps := by
  induction apps generalizing p with
  | nil =>
    cases h
    rw [signaturesFrom, List.append_nil]
  | cons a apps ih =>
    rw [List.foldlM_cons] at h
    obtain ⟨p₁, hadd, hrest⟩ := Outcome.bind_eq_ok.1 h
    obtain ⟨-, _, _, _, _, _, _, _, -, -, -, -, -, rfl⟩ := Progress.add_eq_ok hadd
    rw [ih hrest, List.append_assoc, List.length_append]
    rfl

theorem map_var_bindings (g : Graph) (vars : List Nat) : (g.bindings vars).map (·.var) = vars := by
  rw [Graph.bindings, List.map_map]
  exact List.map_id vars

theorem bindings_inj {vars vars' : List Nat} (h : g.bindings vars = g'.bindings vars') :
    vars = vars' := by
  rw [← map_var_bindings g vars, h, map_var_bindings]

theorem produced_signaturesFrom (position : Nat) :
    (signaturesFrom g position apps).flatMap (fun s => s.outputs.map (·.var)) =
      apps.flatMap (·.outputs) := by
  induction apps generalizing position with
  | nil => rfl
  | cons a apps ih =>
    rw [signaturesFrom, List.flatMap_cons, List.flatMap_cons, ih]
    exact congrArg (· ++ _) (map_var_bindings g a.outputs)

theorem mem_signaturesFrom (ha : a ∈ apps) (position : Nat) :
    ∃ i, signature g a (context g i a) ∈ signaturesFrom g position apps := by
  induction apps generalizing position with
  | nil => cases ha
  | cons b apps ih =>
    rcases List.mem_cons.1 ha with rfl | ha
    · exact ⟨position, by simp [signaturesFrom]⟩
    · obtain ⟨i, hi⟩ := ih ha (position + 1)
      exact ⟨i, by simp [signaturesFrom, hi]⟩

/-- The signatures of a module are those of the applications of its graph. -/
theorem applications_eq {m : Module} (h : assemble g = .ok m) :
    m.applications = signaturesFrom g 0 g.applications := by
  obtain ⟨p, q, hp, -, rfl⟩ := assemble_eq_ok h
  exact signatures_of_foldlM hp

/-- The signatures of applications tell their contexts. -/
theorem context_eq {position : Nat}
    (h : signature g a (context g position a) = signature g' a' (context g' position a')) :
    context g position a = context g' position a' := by
  obtain ⟨hname, -, -, -, hinputs, houtputs⟩ := Signature.mk.inj h
  have hname : Symbol.application position a.kind.name = Symbol.application position a'.kind.name := hname
  simp only [context, hname, hinputs, houtputs]

/-! ## Texts -/

theorem map_eq_map_of_ok {α β γ : Type} {f : α → γ} {f' : β → γ} {x : α} {y : β} {r : Except Refusal α}
    {r' : Except Refusal β} (h : r.map f = r'.map f') (hx : r = .ok x) (hy : r' = .ok y) : f x = f' y := by
  rw [hx, hy] at h
  exact Except.ok.inj h

theorem planOutputs_wording {c : Context} (hkind : a.kind.SameFragments a'.kind)
    (hslot : g.slot = g'.slot) {vars : List Nat} (hvars : g.bindings vars = g'.bindings vars)
    {index : Nat} {outputs outputs' : List OutputPlan} (h : planOutputs g a c index vars = .ok outputs)
    (h' : planOutputs g' a' c index vars = .ok outputs') :
    outputs.map (·.wording) = outputs'.map (·.wording) := by
  induction vars generalizing index outputs outputs' with
  | nil =>
    cases h
    cases h'
    rfl
  | cons v vars ih =>
    obtain ⟨o, ho, h⟩ := Outcome.bind_eq_ok.1 h
    obtain ⟨rest, hrest, h⟩ := Outcome.bind_eq_ok.1 h
    obtain ⟨o', ho', h'⟩ := Outcome.bind_eq_ok.1 h'
    obtain ⟨rest', hrest', h'⟩ := Outcome.bind_eq_ok.1 h'
    cases h
    cases h'
    obtain ⟨extents, hextents, -, rfl⟩ := planOutput_eq_ok ho
    obtain ⟨extents', hextents', -, rfl⟩ := planOutput_eq_ok ho'
    obtain ⟨hv, hvars⟩ := List.cons.inj hvars
    have htexts := map_eq_map_of_ok (hkind.extents c index) hextents hextents'
    rw [List.map_cons, List.map_cons, ih hvars hrest hrest']
    simp only [OutputPlan.wording, hslot, hv, htexts]

/-- What is collected from two graphs and written out the same. -/
structure Progress.Alike (p p' : Progress) : Prop where
  kindBlocks : p.kindBlocks = p'.kindBlocks
  appBlocks : p.appBlocks = p'.appBlocks
  plans : p.plans.map (·.wording) = p'.plans.map (·.wording)
  position : p.signatures.length = p'.signatures.length

theorem Progress.Alike.add (h : p.Alike p') (hslot : g.slot = g'.slot)
    (hsig : signature g a (context g p.signatures.length a) =
      signature g' a' (context g' p.signatures.length a'))
    (hkind : a.kind.SameFragments a'.kind) (hadd : p.add g a = .ok q) (hadd' : p'.add g' a' = .ok q') :
    q.Alike q' := by
  obtain ⟨-, kindBlocks, symbols, blocks, appBlocks, symbols', outputs, body, hkb, hb, hab, ho, hbody,
    rfl⟩ := add_eq_ok hadd
  obtain ⟨-, kindBlocks', symbols₁, blocks', appBlocks', symbols₁', outputs', body', hkb', hb', hab',
    ho', hbody', rfl⟩ := add_eq_ok hadd'
  have hcontext := context_eq hsig
  obtain ⟨-, -, -, -, hins, houts⟩ := Signature.mk.inj hsig
  have hinputs : a.inputs = a'.inputs := bindings_inj hins
  have houtputs : a.outputs = a'.outputs := bindings_inj houts
  rw [← h.position, ← hcontext] at hkb' hb' hab' ho' hbody'
  rw [← h.kindBlocks, ← hkind.kindBlocks] at hkb'
  rw [← hkind.appBlocks, hb] at hb'
  cases hb'
  rw [← h.appBlocks] at hab'
  rw [← houtputs] at ho' houts
  have hwording := planOutputs_wording hkind hslot houts ho ho'
  have htext := map_eq_map_of_ok (hkind.body _) hbody hbody'
  refine ⟨Support.insertAll_blocks hkb hkb', Support.insertAll_blocks hab hab', ?_, ?_⟩
  · have hplan : Plan.wording ⟨context g p.signatures.length a, a.inputs.map g.slot, outputs, body⟩ =
        Plan.wording ⟨context g' p'.signatures.length a', a'.inputs.map g'.slot, outputs', body'⟩ := by
      simp only [Plan.wording, ← h.position, ← hcontext, ← hinputs, hslot, hwording, htext]
    rw [List.map_append, List.map_append, h.plans]
    exact congrArg (p'.plans.map (·.wording) ++ [·]) hplan
  · simp [h.position]

theorem alike_of_foldlM (h : p.Alike p') (hslot : g.slot = g'.slot)
    (hsigs : signaturesFrom g p.signatures.length apps = signaturesFrom g' p.signatures.length apps')
    (hkinds : ∀ a ∈ apps, ∀ a' ∈ apps', a.kind.name = a'.kind.name → a.kind.params = a'.kind.params →
      a.kind.version = a'.kind.version → a.kind.SameFragments a'.kind)
    (hfold : apps.foldlM (Progress.add g) p = .ok q)
    (hfold' : apps'.foldlM (Progress.add g') p' = .ok q') : q.Alike q' := by
  induction apps generalizing apps' p p' with
  | nil =>
    cases apps' with
    | nil =>
      cases hfold
      cases hfold'
      exact h
    | cons a' apps' => cases hsigs
  | cons a apps ih =>
    cases apps' with
    | nil => cases hsigs
    | cons a' apps' =>
      rw [List.foldlM_cons] at hfold hfold'
      obtain ⟨p₁, hadd, hrest⟩ := Outcome.bind_eq_ok.1 hfold
      obtain ⟨p₁', hadd', hrest'⟩ := Outcome.bind_eq_ok.1 hfold'
      obtain ⟨hsig, hsigs⟩ := List.cons.inj hsigs
      obtain ⟨-, hname, hparams, hversion, -, -⟩ := Signature.mk.inj hsig
      have hkind := hkinds a (by simp) a' (by simp) hname hparams hversion
      obtain ⟨_, -, -, hlength⟩ := Progress.add_places hadd
      exact ih (h.add hslot hsig hkind hadd hadd') (hlength ▸ hsigs)
        (fun b hb b' hb' => hkinds b (by simp [hb]) b' (by simp [hb'])) hrest hrest'

/-- Of signatures, the parts of a module show the texts. -/
theorem parts_congr (hinputs : g.bindings g.inputs = g'.bindings g'.inputs)
    (houtputs : g.bindings g.outputs = g'.bindings g'.outputs) (htemps : g.tempCount = g'.tempCount)
    (hsigs : p.signatures.map (·.text) = p'.signatures.map (·.text)) (hlink : p.link = p'.link)
    (h : p.Alike p') : parts g p = parts g' p' := by
  have hlines : (p.signatures.map fun s => " * " ++ Source.commentText s.text) =
      p'.signatures.map fun s => " * " ++ Source.commentText s.text := by
    have hmap := congrArg (List.map fun text => " * " ++ Source.commentText text) hsigs
    rwa [List.map_map, List.map_map] at hmap
  have hins : g.inputs.length = g'.inputs.length := by rw [bindings_inj hinputs]
  have houts : g.outputs.length = g'.outputs.length := by rw [bindings_inj houtputs]
  simp only [parts, globalText, Module.header, hinputs, houtputs, hlines, hlink, h.kindBlocks, h.appBlocks,
    Module.entryPieces_congr h.plans, hins, houts, htemps]

/-- **The manifest determines the text**, for kinds that write the same if their names, parameters and
versions are the same. -/
theorem source_eq {m m' : Module} (hm : assemble g = .ok m) (hm' : assemble g' = .ok m')
    (h : m.Agrees m')
    (hkinds : ∀ a ∈ g.applications, ∀ a' ∈ g'.applications, a.kind.name = a'.kind.name →
      a.kind.params = a'.kind.params → a.kind.version = a'.kind.version →
      a.kind.SameFragments a'.kind) : m.source = m'.source := by
  obtain ⟨p, q, hp, hq, rfl⟩ := assemble_eq_ok hm
  obtain ⟨p', q', hp', hq', rfl⟩ := assemble_eq_ok hm'
  have hins := h.inputs
  have houts := h.outputs
  have happs := h.applications
  have hlink := h.link
  dsimp only at hins houts happs hlink
  have hsigs : signaturesFrom g 0 g.applications = signaturesFrom g' 0 g'.applications :=
    (signatures_of_foldlM hp).symm.trans (happs.trans (signatures_of_foldlM hp'))
  have hinputs : g.inputs = g'.inputs := bindings_inj hins
  have houtputs : g.outputs = g'.outputs := bindings_inj houts
  have hproduced : g.produced = g'.produced := by
    rw [Graph.produced, Graph.produced, ← @produced_signaturesFrom g _ 0,
      ← @produced_signaturesFrom g' _ 0, hsigs]
  have htemps : g.temporaries = g'.temporaries := by
    rw [Graph.temporaries, Graph.temporaries, hproduced, hinputs, houtputs]
  have hslot : g.slot = g'.slot := by
    funext v
    rw [Graph.slot, Graph.slot, hinputs, houtputs, htemps]
  have hstart : Progress.start.Alike Progress.start := ⟨rfl, rfl, rfl, rfl⟩
  have halike : p.Alike p' := alike_of_foldlM hstart hslot hsigs hkinds hp hp'
  have hparts := parts_congr hins houts (by rw [Graph.tempCount, Graph.tempCount, htemps])
    (by rw [happs]) hlink halike
  rw [hq, hq'] at hparts
  exact congrArg Parts.text (Except.ok.inj hparts)

end Assembly

end OpFusion
