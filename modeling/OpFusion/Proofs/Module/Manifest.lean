/-
  The hashed input of a module tells what it was made from.

  If the numbers and lengths of two modules and of two compilers are words, the hashed inputs are equal
  exactly if the compilers, inputs, outputs, signatures, requirements and permissions to overlap are, and
  the texts too unless every application has a version (`material_eq_iff`).
-/
import OpFusion.Module.Key
import OpFusion.Proofs.Wire

namespace OpFusion

open Wire (Short Apart TextFits ListFits)

/-! ## Sizes -/

/-- A variable whose number and rank are words. -/
structure Binding.Fits (b : Binding) : Prop where
  var : b.var < 2 ^ 64
  rank : b.desc.rank < 2 ^ 64

/-- A signature whose numbers and lengths are words. -/
structure Signature.Fits (s : Signature) : Prop where
  name : TextFits s.name
  kind : TextFits s.kind
  params : TextFits s.params
  version : ∀ v, s.version = some v → ListFits (fun _ => True) v
  inputs : ListFits Binding.Fits s.inputs
  outputs : ListFits Binding.Fits s.outputs

/-- Requirements whose lengths are words. -/
structure Link.Fits (l : Link) : Prop where
  headers : ListFits TextFits l.headers
  libraries : ListFits TextFits l.libraries
  libDirs : ListFits TextFits l.libDirs
  includeDirs : ListFits TextFits l.includeDirs
  compileFlags : ListFits TextFits l.compileFlags
  linkFlags : ListFits TextFits l.linkFlags
  initCode : ListFits TextFits l.initCode

/-- A compiler whose texts have words for their lengths. -/
structure Identity.Fits (t : Identity) : Prop where
  compiler : TextFits t.compiler
  version : TextFits t.version
  flags : ListFits TextFits t.flags

/-- A module with a manifest whose numbers and lengths are words. -/
structure Module.Fits (m : Module) : Prop where
  inputs : ListFits Binding.Fits m.inputs
  outputs : ListFits Binding.Fits m.outputs
  applications : ListFits Signature.Fits m.applications
  link : m.link.Fits

/-! ## Parts of a manifest -/

theorem DType.tag_inj {d d' : DType} (h : d.tag = d'.tag) : d = d' := by
  cases d <;> cases d' <;> first | rfl | cases h

theorem DType.tag_lt (d : DType) : d.tag < 2 ^ 32 := by cases d <;> decide

namespace Manifest

theorem apart_binding : Apart Binding.Fits bindingBytes := by
  intro b c hb hc r s h
  simp only [bindingBytes, List.append_assoc] at h
  obtain ⟨hvar, h⟩ := Wire.reads_u64.apart _ _ hb.var hc.var _ _ h
  obtain ⟨htag, h⟩ := Wire.reads_u32.apart _ _ b.desc.dtype.tag_lt c.desc.dtype.tag_lt _ _ h
  obtain ⟨hrank, hrest⟩ := Wire.reads_u64.apart _ _ hb.rank hc.rank _ _ h
  obtain ⟨var, dtype, rank⟩ := b
  obtain ⟨var', dtype', rank'⟩ := c
  cases hvar
  cases hrank
  cases DType.tag_inj htag
  exact ⟨rfl, hrest⟩

theorem bindings_fit {bs : List Binding} (h : Short (Wire.list bindingBytes bs))
    (hfits : ∀ b ∈ bs, b.Fits) : ListFits Binding.Fits bs := by
  have hpos : ∀ b, 0 < (bindingBytes b).length := fun b => by
    simp only [bindingBytes, List.length_append, Wire.u64, Wire.u32, length_leBytes]
    omega
  exact h.listFits hpos fun b hb _ => hfits b hb

theorem apart_version : Apart (ListFits fun _ => True) versionBytes := by
  have hpart : Apart (fun _ => True) fun part : UInt32 => Wire.u32 part.toNat := by
    intro x y _ _ r s h
    obtain ⟨hxy, h⟩ := Wire.reads_u32.apart _ _ x.toNat_lt y.toNat_lt _ _ h
    exact ⟨UInt32.toNat_inj.1 hxy, h⟩
  exact hpart.list

theorem apart_signature : Apart Signature.Fits signatureBytes := by
  intro a b ha hb r s h
  simp only [signatureBytes, List.append_assoc] at h
  obtain ⟨hname, h⟩ := Wire.apart_string _ _ ha.name hb.name _ _ h
  obtain ⟨hkind, h⟩ := Wire.apart_string _ _ ha.kind hb.kind _ _ h
  obtain ⟨hparams, h⟩ := Wire.apart_string _ _ ha.params hb.params _ _ h
  obtain ⟨hversion, h⟩ := apart_version.option _ _ ha.version hb.version _ _ h
  obtain ⟨hinputs, h⟩ := apart_binding.list _ _ ha.inputs hb.inputs _ _ h
  obtain ⟨houtputs, hrest⟩ := apart_binding.list _ _ ha.outputs hb.outputs _ _ h
  obtain ⟨name, kind, params, version, inputs, outputs⟩ := a
  cases hname
  cases hkind
  cases hparams
  cases hversion
  cases hinputs
  cases houtputs
  exact ⟨rfl, hrest⟩

theorem signature_fits {s : Signature} (h : Short (signatureBytes s))
    (hbindings : ∀ b ∈ s.inputs ++ s.outputs, b.Fits) : s.Fits := by
  simp only [signatureBytes, List.append_assoc] at h
  obtain ⟨hversion, hinputs, houtputs⟩ : Short (Wire.option versionBytes s.version) ∧
      Short (Wire.list bindingBytes s.inputs) ∧ Short (Wire.list bindingBytes s.outputs) :=
    ⟨h.right.right.right.left, h.right.right.right.right.left, h.right.right.right.right.right⟩
  have hpos : ∀ part : UInt32, 0 < (Wire.u32 part.toNat).length := fun part => by
    rw [Wire.u32, length_leBytes]
    omega
  refine ⟨h.left.right, h.right.left.right, h.right.right.left.right, fun v hv => ?_,
    bindings_fit hinputs fun b hb => hbindings b (by simp [hb]),
    bindings_fit houtputs fun b hb => hbindings b (by simp [hb])⟩
  rw [hv] at hversion
  exact (@Short.right [1] _ hversion).listFits hpos fun _ _ _ => trivial

theorem length_signatureBytes_pos (s : Signature) : 0 < (signatureBytes s).length := by
  have hpos := Wire.length_string_pos s.name
  simp only [signatureBytes, List.length_append]
  omega

theorem apart_link : Apart Link.Fits linkBytes := by
  intro a b ha hb r s h
  simp only [linkBytes, List.append_assoc] at h
  obtain ⟨hheaders, h⟩ := Wire.apart_strings _ _ ha.headers hb.headers _ _ h
  obtain ⟨hlibraries, h⟩ := Wire.apart_strings _ _ ha.libraries hb.libraries _ _ h
  obtain ⟨hlibDirs, h⟩ := Wire.apart_strings _ _ ha.libDirs hb.libDirs _ _ h
  obtain ⟨hincludeDirs, h⟩ := Wire.apart_strings _ _ ha.includeDirs hb.includeDirs _ _ h
  obtain ⟨hcompileFlags, h⟩ := Wire.apart_strings _ _ ha.compileFlags hb.compileFlags _ _ h
  obtain ⟨hlinkFlags, h⟩ := Wire.apart_strings _ _ ha.linkFlags hb.linkFlags _ _ h
  obtain ⟨hinitCode, hrest⟩ := Wire.apart_strings _ _ ha.initCode hb.initCode _ _ h
  obtain ⟨headers, libraries, libDirs, includeDirs, compileFlags, linkFlags, initCode⟩ := a
  cases hheaders
  cases hlibraries
  cases hlibDirs
  cases hincludeDirs
  cases hcompileFlags
  cases hlinkFlags
  cases hinitCode
  exact ⟨rfl, hrest⟩

theorem link_fits {l : Link} (h : Short (linkBytes l)) : l.Fits := by
  simp only [linkBytes, List.append_assoc] at h
  obtain ⟨hdirs, hflags⟩ := And.intro h.right.right h.right.right.right.right
  exact ⟨h.left.textsFit, h.right.left.textsFit, hdirs.left.textsFit, hdirs.right.left.textsFit,
    hflags.left.textsFit, hflags.right.left.textsFit, hflags.right.right.textsFit⟩

theorem apart_identity : Apart Identity.Fits identityBytes := by
  intro a b ha hb r s h
  simp only [identityBytes, List.append_assoc] at h
  obtain ⟨hcompiler, h⟩ := Wire.apart_string _ _ ha.compiler hb.compiler _ _ h
  obtain ⟨hversion, h⟩ := Wire.apart_string _ _ ha.version hb.version _ _ h
  obtain ⟨hflags, hrest⟩ := Wire.apart_strings _ _ ha.flags hb.flags _ _ h
  obtain ⟨compiler, version, flags⟩ := a
  cases hcompiler
  cases hversion
  cases hflags
  exact ⟨rfl, hrest⟩

end Manifest

/-! ## Manifests -/

/-- Modules of one manifest. -/
structure Module.Agrees (m m' : Module) : Prop where
  inputs : m.inputs = m'.inputs
  outputs : m.outputs = m'.outputs
  applications : m.applications = m'.applications
  link : m.link = m'.link
  reentrant : m.reentrant = m'.reentrant

namespace Module.Agrees

variable {m₁ m₂ m₃ : Module}

theorem symm (h : m₁.Agrees m₂) : m₂.Agrees m₁ :=
  ⟨h.inputs.symm, h.outputs.symm, h.applications.symm, h.link.symm, h.reentrant.symm⟩

theorem trans (h : m₁.Agrees m₂) (h' : m₂.Agrees m₃) : m₁.Agrees m₃ :=
  ⟨h.inputs.trans h'.inputs, h.outputs.trans h'.outputs, h.applications.trans h'.applications,
    h.link.trans h'.link, h.reentrant.trans h'.reentrant⟩

end Module.Agrees

namespace Manifest

variable {m m' : Module} {t t' : Identity}

/-- A manifest is told apart by its bytes, whatever follows. -/
theorem encode_append_inj (hm : m.Fits) (ht : t.Fits) (hm' : m'.Fits) (ht' : t'.Fits) {r s : List UInt8}
    (h : encode m t ++ r = encode m' t' ++ s) : t = t' ∧ m.Agrees m' ∧ r = s := by
  simp only [encode, List.append_assoc] at h
  replace h := List.append_cancel_left (List.append_cancel_left h)
  obtain ⟨hidentity, h⟩ := apart_identity _ _ ht ht' _ _ h
  obtain ⟨hinputs, h⟩ := apart_binding.list _ _ hm.inputs hm'.inputs _ _ h
  obtain ⟨houtputs, h⟩ := apart_binding.list _ _ hm.outputs hm'.outputs _ _ h
  obtain ⟨happs, h⟩ := apart_signature.list _ _ hm.applications hm'.applications _ _ h
  obtain ⟨hlink, h⟩ := apart_link _ _ hm.link hm'.link _ _ h
  obtain ⟨hreentrant, hrest⟩ := Wire.reads_bool.apart _ _ trivial trivial _ _ h
  exact ⟨hidentity, ⟨hinputs, houtputs, happs, hlink, hreentrant⟩, hrest⟩

theorem isVersioned_eq (h : m.Agrees m') : m.isVersioned = m'.isVersioned := by
  rw [Module.isVersioned, Module.isVersioned, h.applications]

theorem encode_congr (h : m.Agrees m') (t : Identity) : encode m t = encode m' t := by
  simp only [encode, h.inputs, h.outputs, h.applications, h.link, h.reentrant]

/-- Modules of one manifest have the same hashed input, if the text is the same where it is hashed. -/
theorem material_congr (h : m.Agrees m') (hsource : m.isVersioned = false → m.source = m'.source)
    (t : Identity) : material m t = material m' t := by
  have hbytes : sourceBytes m = sourceBytes m' := by
    rw [sourceBytes, sourceBytes, ← isVersioned_eq h]
    cases hversioned : m.isVersioned with
    | true => rfl
    | false => rw [hsource hversioned]
  rw [material, material, encode_congr h, hbytes]

theorem key_congr (h : m.Agrees m') (hsource : m.isVersioned = false → m.source = m'.source)
    (t : Identity) : m.key t = m'.key t := by
  simp only [Module.key, material_congr h hsource t]

/-- The hashed input tells what is hashed. -/
theorem material_inj (hm : m.Fits) (ht : t.Fits) (hm' : m'.Fits) (ht' : t'.Fits)
    (h : material m t = material m' t') :
    t = t' ∧ m.Agrees m' ∧ (m.isVersioned = false → m.source = m'.source) := by
  simp only [material, List.append_assoc] at h
  replace h := List.append_cancel_left h
  -- The length of a manifest wraps around, but it is written in eight bytes whatever it is.
  obtain ⟨-, h⟩ := List.append_inj h (by rw [Wire.u64, Wire.u64, length_leBytes, length_leBytes])
  obtain ⟨hidentity, hagrees, hsource⟩ := encode_append_inj hm ht hm' ht' h
  refine ⟨hidentity, hagrees, fun hversioned => ?_⟩
  rw [sourceBytes, sourceBytes, ← isVersioned_eq hagrees, hversioned] at hsource
  exact Utf8.bytesOf_inj (List.cons.inj hsource).2

/-- A manifest of few bytes and small numbers, as in memory of 64-bit words. -/
structure Fits (m : Module) (t : Identity) : Prop where
  short : Short (encode m t)
  bindings : ∀ b ∈ m.inputs ++ m.outputs, b.Fits
  signatures : ∀ s ∈ m.applications, ∀ b ∈ s.inputs ++ s.outputs, b.Fits

theorem Fits.identity (h : Fits m t) : t.Fits := by
  have hs := h.short
  simp only [encode, identityBytes, List.append_assoc] at hs
  replace hs := hs.right.right
  exact ⟨hs.left.right, hs.right.left.right, hs.right.right.left.textsFit⟩

theorem Fits.module (h : Fits m t) : m.Fits := by
  have hs := h.short
  simp only [encode, List.append_assoc] at hs
  replace hs := hs.right.right.right
  exact ⟨bindings_fit hs.left fun b hb => h.bindings b (by simp [hb]),
    bindings_fit hs.right.left fun b hb => h.bindings b (by simp [hb]),
    hs.right.right.left.listFits length_signatureBytes_pos fun s hmem hshort =>
      signature_fits hshort (h.signatures s hmem),
    link_fits hs.right.right.right.left⟩

/-- **The hashed input tells exactly what is hashed.** -/
theorem material_eq_iff (hm : m.Fits) (ht : t.Fits) (hm' : m'.Fits) (ht' : t'.Fits) :
    material m t = material m' t' ↔
      t = t' ∧ m.Agrees m' ∧
        (m.isVersioned = false ∨ m'.isVersioned = false →
          m.isVersioned = false ∧ m'.isVersioned = false ∧ m.source = m'.source) := by
  constructor
  · intro h
    obtain ⟨hidentity, hagrees, hsource⟩ := material_inj hm ht hm' ht' h
    have hversioned := isVersioned_eq hagrees
    refine ⟨hidentity, hagrees, fun hnot => ?_⟩
    rw [← hversioned, or_self] at hnot
    exact ⟨hnot, hversioned ▸ hnot, hsource hnot⟩
  · rintro ⟨rfl, hagrees, hsource⟩
    exact material_congr hagrees (fun hversioned => (hsource (.inl hversioned)).2.2) t

/-- A module of one application without a version. -/
def unversioned (source : String) : Module where
  source
  parts := ⟨source, "", "", "", ""⟩
  link := {}
  inputs := []
  outputs := [⟨0, .i64, 0⟩]
  applications := [⟨"n0_tick", "tick", "", none, [], [⟨0, .i64, 0⟩]⟩]
  reentrant := true
  hasInit := false
  plans := []
  tempCount := 0

/-- Of an application without a version, the text counts. -/
theorem material_ne_of_source_ne :
    (unversioned "a").Fits ∧ (unversioned "b").Fits ∧ (⟨"cc", "14.2.0", ["-O2"]⟩ : Identity).Fits ∧
      material (unversioned "a") ⟨"cc", "14.2.0", ["-O2"]⟩ ≠
        material (unversioned "b") ⟨"cc", "14.2.0", ["-O2"]⟩ := by
  have hbinding : ∀ b ∈ [(⟨0, .i64, 0⟩ : Binding)], b.Fits := by
    rintro b hb
    cases List.mem_singleton.1 hb
    exact ⟨by decide, by decide⟩
  have hfits : ∀ source, Fits (unversioned source) ⟨"cc", "14.2.0", ["-O2"]⟩ := by
    intro source
    refine ⟨?_, hbinding, ?_⟩
    · show (encode (unversioned "") ⟨"cc", "14.2.0", ["-O2"]⟩).length < 2 ^ 64
      decide +kernel
    · rintro s hs
      cases List.mem_singleton.1 hs
      exact hbinding
  have ha := (hfits "a").module
  have hb := (hfits "b").module
  have ht := (hfits "a").identity
  refine ⟨ha, hb, ht, fun h => ?_⟩
  obtain ⟨-, -, hsource⟩ := (material_eq_iff ha ht hb ht).1 h
  exact absurd (hsource (.inl rfl)).2.2 (by decide)

end Manifest

end OpFusion
