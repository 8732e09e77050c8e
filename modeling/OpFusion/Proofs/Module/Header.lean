/-
  The header of a module tells what it shows.

  The variables, the numbers of versions and the signatures are told by their texts (`Binding.text_inj`,
  `Signature.version_eq`, `Signature.text_inj`), and so are the requirements that have nothing in them
  that a comment has to change (`Module.linkLines_inj`). A module starts with the lines of its header
  (`Module.exists_source_eq`), which are told by the text of the module, whatever follows
  (`Module.headerLines_inj`).
-/
import OpFusion.Proofs.Module.Determined
import OpFusion.Proofs.Symbol

namespace OpFusion

variable {c : Char}

/-! ## What a comment shows -/

namespace Source

theorem newline_notMem_commentText (s : String) : '\n' ∉ (commentText s).toList := by
  intro h
  rw [commentText, String.toList_ofList, commentChars, joinLines] at h
  obtain ⟨c, -, hc⟩ := List.mem_map.1 h
  split at hc
  · exact absurd hc (by decide)
  · contradiction

theorem splitClosers_append (hc : c ≠ '/') (cs ds : List Char) :
    splitClosers (cs ++ c :: ds) = splitClosers cs ++ splitClosers (c :: ds) := by
  fun_induction splitClosers cs with
  | case1 => rfl
  | case2 cs ih => rw [List.cons_append, List.cons_append, splitClosers, ih]; rfl
  | case3 x cs hclose ih =>
    -- A star at the end is not followed by a slash either.
    have hopen : ∀ rest, x = '*' → cs ++ c :: ds = '/' :: rest → False := by
      intro rest hx heq
      cases cs with
      | nil => exact hc (List.cons.inj heq).1
      | cons y cs => exact hclose cs hx (by rw [(List.cons.inj heq).1])
    rw [List.cons_append, splitClosers.eq_3 x _ hopen, ih, List.cons_append]

theorem commentChars_append (hc : c ≠ '/') (cs ds : List Char) :
    commentChars (cs ++ c :: ds) = commentChars cs ++ commentChars (c :: ds) := by
  rw [commentChars, commentChars, commentChars, splitClosers_append hc, joinLines, joinLines, joinLines,
    List.map_append]

theorem commentChars_eq_self {cs : List Char} (hstar : '*' ∉ cs) (hnewline : '\n' ∉ cs) :
    commentChars cs = cs := by
  have hsplit : splitClosers cs = cs := by
    induction cs with
    | nil => rfl
    | cons x cs ih =>
      have hx : ∀ rest, x = '*' → cs = '/' :: rest → False := fun _ hx _ =>
        List.ne_of_not_mem_cons hstar hx.symm
      rw [splitClosers.eq_3 x _ hx, ih (List.not_mem_of_not_mem_cons hstar)
        (List.not_mem_of_not_mem_cons hnewline)]
  rw [commentChars, hsplit, joinLines]
  refine (List.map_congr_left fun x hx => ?_).trans (List.map_id cs)
  exact if_neg fun heq : x = '\n' => hnewline (heq ▸ hx)

end Source

theorem DType.name_inj {d d' : DType} (h : d.name = d'.name) : d = d' := by
  cases d <;> cases d' <;> first | rfl | exact absurd h (by decide)

theorem DType.isAlphanum_of_mem_name {d : DType} (h : c ∈ d.name.toList) : c.isAlphanum = true := by
  have hall : d.name.toList.all Char.isAlphanum = true := by cases d <;> decide
  exact List.all_eq_true.1 hall c h

namespace Binding

variable {b b' : Binding}

theorem toList_text (b : Binding) : b.text.toList =
    'v' :: (toString b.var).toList ++ ':' :: (b.desc.dtype.name.toList ++ '/' :: 'r' ::
      (toString b.desc.rank).toList) := by
  simp [text, VarDesc.text]

theorem mem_text (h : c ∈ b.text.toList) : c.isAlphanum = true ∨ c ∈ [':', '/'] := by
  simp only [toList_text, List.mem_append, List.mem_cons] at h
  rcases h with (rfl | h) | rfl | h | rfl | rfl | h
  · exact .inl (by decide)
  · exact .inl (Text.isAlphanum_of_mem_toString h)
  · exact .inr (by decide)
  · exact .inl (DType.isAlphanum_of_mem_name h)
  · exact .inr (by decide)
  · exact .inl (by decide)
  · exact .inl (Text.isAlphanum_of_mem_toString h)

/-- A variable is told by its text. -/
theorem text_inj (h : b.text = b'.text) : b = b' := by
  have hdigits : ∀ n : Nat, ':' ∉ (toString n).toList := fun n hn =>
    absurd (Text.isDigit_of_mem_toString hn) (by decide)
  have hname : ∀ d : DType, '/' ∉ d.name.toList := fun d hd =>
    absurd (DType.isAlphanum_of_mem_name hd) (by decide)
  replace h := congrArg String.toList h
  rw [toList_text, toList_text, List.cons_append, List.cons_append] at h
  obtain ⟨hvar, h⟩ := Text.append_cons_inj_first (hdigits _) (hdigits _) (List.cons.inj h).2
  obtain ⟨hdtype, h⟩ := Text.append_cons_inj_first (hname _) (hname _) h
  obtain ⟨var, dtype, rank⟩ := b
  obtain ⟨var', dtype', rank'⟩ := b'
  cases Nat.repr_inj.1 (String.toList_inj.1 hvar)
  cases DType.name_inj (String.toList_inj.1 hdtype)
  cases Nat.repr_inj.1 (String.toList_inj.1 (List.cons.inj h).2)
  rfl

end Binding

namespace Signature

variable {s s' : Signature}

theorem notMem_bindingsText (bs : List Binding) (hc : c.isAlphanum = false)
    (hseparator : c ∉ [':', '/', ',', ' ']) : c ∉ (bindingsText bs).toList := by
  intro h
  rcases Text.mem_intercalate h with h | ⟨item, hitem, h⟩
  · exact hseparator ((by decide : ", ".toList ⊆ [':', '/', ',', ' ']) h)
  · obtain ⟨b, -, rfl⟩ := List.mem_map.1 hitem
    rcases Binding.mem_text h with h | h
    · exact Bool.false_ne_true (hc.symm.trans h)
    · exact hseparator ((by decide : [':', '/'] ⊆ [':', '/', ',', ' ']) h)

theorem bindingsText_inj {bs bs' : List Binding} (h : bindingsText bs = bindingsText bs') : bs = bs' := by
  have hcomma : ∀ bs : List Binding, ∀ item ∈ bs.map (·.text), ',' ∉ item.toList := by
    intro bs item hitem hmem
    obtain ⟨b, -, rfl⟩ := List.mem_map.1 hitem
    rcases Binding.mem_text hmem with h | h
    · exact absurd h (by decide)
    · exact absurd h (by decide)
  have hempty : ∀ b (bs : List Binding), bindingsText (b :: bs) ≠ bindingsText [] := by
    intro b bs heq
    replace heq := congrArg String.toList heq
    cases bs <;> simp [bindingsText, String.toList_intercalate, Binding.toList_text] at heq
  cases bs with
  | nil =>
    cases bs' with
    | nil => rfl
    | cons b' bs' => exact absurd h.symm (hempty b' bs')
  | cons b bs =>
    cases bs' with
    | nil => exact absurd h (hempty b bs)
    | cons b' bs' =>
      exact List.map_injective_iff.2 (fun _ _ => Binding.text_inj)
        (Text.intercalate_inj rfl (by simp) (by simp) (hcomma _) (hcomma _) h)

/-- The numbers of a version with points between them. -/
def partsText (v : Version) : String := ".".intercalate (v.map fun p => toString p.toNat)

theorem mem_partsText {v : Version} (h : c ∈ (partsText v).toList) : c.isDigit = true ∨ c = '.' := by
  rcases Text.mem_intercalate h with h | ⟨item, hitem, h⟩
  · exact .inr (List.mem_singleton.1 h)
  · obtain ⟨part, -, rfl⟩ := List.mem_map.1 hitem
    exact .inl (Text.isDigit_of_mem_toString h)

theorem partsText_inj {v v' : Version} (hv : v ≠ []) (hv' : v' ≠ [])
    (h : partsText v = partsText v') : v = v' := by
  have hpoint : ∀ v : Version, ∀ item ∈ v.map fun p => toString p.toNat, '.' ∉ item.toList := by
    intro v item hitem hmem
    obtain ⟨part, -, rfl⟩ := List.mem_map.1 hitem
    exact absurd (Text.isDigit_of_mem_toString hmem) (by decide)
  refine List.map_injective_iff.2 (fun p p' hp => UInt32.toNat_inj.1 (Nat.repr_inj.1 hp)) ?_
  exact Text.intercalate_inj rfl (by simpa using hv) (by simpa using hv') (hpoint v) (hpoint v') h

theorem versionText_eq (s : Signature) : s.versionText = "unversioned" ∨
    ∃ part parts, s.version = some (part :: parts) ∧ s.versionText = partsText (part :: parts) := by
  unfold versionText
  split
  · next part parts hversion => exact .inr ⟨part, parts, hversion, rfl⟩
  · exact .inl rfl

theorem notMem_versionText (s : Signature) (hc : c.isAlphanum = false) (hpoint : c ≠ '.') :
    c ∉ s.versionText.toList := by
  intro h
  rcases versionText_eq s with hs | ⟨part, parts, -, hs⟩
  · rw [hs] at h
    have hall : "unversioned".toList.all Char.isAlphanum = true := by decide
    exact Bool.false_ne_true (hc.symm.trans (List.all_eq_true.1 hall c h))
  · rw [hs] at h
    rcases mem_partsText h with h | h
    · rw [Char.isAlphanum, h, Bool.or_true] at hc
      exact Bool.false_ne_true hc.symm
    · exact hpoint h

/-- The text of a version tells it, but for a missing and an empty one. -/
theorem version_eq (h : s.versionText = s'.versionText) (hsome : s.version.isSome = s'.version.isSome) :
    s.version = s'.version := by
  have hletter : ∀ v : Version, "unversioned" ≠ partsText v := by
    intro v hv
    have hu : 'u' ∈ (partsText v).toList := hv ▸ (by decide : 'u' ∈ "unversioned".toList)
    rcases mem_partsText hu with hu | hu
    · exact absurd hu (by decide)
    · exact absurd hu (by decide)
  obtain ⟨name, kind, params, version, inputs, outputs⟩ := s
  obtain ⟨name', kind', params', version', inputs', outputs'⟩ := s'
  rcases version with _ | _ | ⟨part, parts⟩ <;> rcases version' with _ | _ | ⟨part', parts'⟩
  · rfl
  · cases hsome
  · cases hsome
  · cases hsome
  · rfl
  · exact absurd h (hletter _)
  · cases hsome
  · exact absurd h.symm (hletter _)
  · rw [partsText_inj (List.cons_ne_nil _ _) (List.cons_ne_nil _ _) h]

/-- The text of a signature from its version on. -/
def ending (s : Signature) : List Char :=
  ' ' :: 'v' :: (s.versionText.toList ++ ' ' :: '[' :: ((bindingsText s.inputs).toList ++
    ']' :: ' ' :: '-' :: '>' :: ' ' :: '[' :: ((bindingsText s.outputs).toList ++ [']'])))

theorem toList_text (s : Signature) : s.text.toList =
    (s.name.toList ++ ':' :: ' ' :: (s.kind.toList ++ '(' :: s.params.toList)) ++ ')' :: s.ending := by
  simp [text, ending]

theorem notMem_ending (s : Signature) (hc : c.isAlphanum = false)
    (hmark : c ∉ [':', '/', ',', ' ', '.', '[', ']', '-', '>']) : c ∉ s.ending := by
  have hversion := notMem_versionText s hc fun heq => hmark (by rw [heq]; decide)
  have hbindings := fun bs => notMem_bindingsText bs hc fun hmem =>
    hmark ((by decide : [':', '/', ',', ' '] ⊆ [':', '/', ',', ' ', '.', '[', ']', '-', '>']) hmem)
  have hv : c ≠ 'v' := fun heq => absurd (heq ▸ hc) (by decide)
  simp only [List.mem_cons, List.not_mem_nil, or_false, not_or] at hmark
  simp [ending, hversion, hbindings, hv, hmark]

/-- The ending tells the version, but for a missing and an empty one, and the variables. -/
theorem ending_inj (h : s.ending = s'.ending) (hsome : s.version.isSome = s'.version.isSome) :
    s.version = s'.version ∧ s.inputs = s'.inputs ∧ s.outputs = s'.outputs := by
  replace h := (List.cons.inj (List.cons.inj h).2).2
  obtain ⟨hversion, h⟩ := Text.append_cons_inj_first (notMem_versionText s (by decide) (by decide))
    (notMem_versionText s' (by decide) (by decide)) h
  obtain ⟨hinputs, h⟩ := Text.append_cons_inj_first (notMem_bindingsText _ (by decide) (by decide))
    (notMem_bindingsText _ (by decide) (by decide)) (List.cons.inj h).2
  have houtputs := List.append_cancel_right (@List.append_cancel_left _ [' ', '-', '>', ' ', '['] _ _ h)
  exact ⟨version_eq (String.toList_inj.1 hversion) hsome,
    bindingsText_inj (String.toList_inj.1 hinputs), bindingsText_inj (String.toList_inj.1 houtputs)⟩

theorem eq_of_ending (hname : s.name = s'.name) (hkind : s.kind = s'.kind) (hparams : s.params = s'.params)
    (h : s.ending = s'.ending) (hsome : s.version.isSome = s'.version.isSome) : s = s' := by
  obtain ⟨hversion, hinputs, houtputs⟩ := ending_inj h hsome
  obtain ⟨name, kind, params, version, inputs, outputs⟩ := s
  cases hname
  cases hkind
  cases hparams
  cases hversion
  cases hinputs
  cases houtputs
  rfl

/-- A signature is told by its text and the position of its application, but for a missing and an empty
version. -/
theorem text_inj {position : Nat} (hs : s.name = Symbol.application position s.kind)
    (hs' : s'.name = Symbol.application position s'.kind) (h : s.text = s'.text)
    (hsome : s.version.isSome = s'.version.isSome) : s = s' := by
  have hname : ∀ kind, ':' ∉ (Symbol.application position kind).toList := fun kind hmem =>
    absurd (Symbol.isPart_of_mem_application hmem) (by decide)
  replace h := congrArg String.toList h
  rw [toList_text, toList_text] at h
  -- The last bracket ends the parameters, the first colon the name, and the name tells the kind's length.
  obtain ⟨hbefore, hending⟩ := Text.append_cons_inj_last (notMem_ending s (by decide) (by decide))
    (notMem_ending s' (by decide) (by decide)) h
  rw [hs, hs'] at hbefore
  obtain ⟨happ, hbefore⟩ := Text.append_cons_inj_first (hname _) (hname _) hbefore
  obtain ⟨hkind, hparams⟩ := Symbol.eq_of_sanitizeChars_eq (Symbol.sanitizeChars_eq happ)
    (List.cons.inj hbefore).2
  exact eq_of_ending (by rw [hs, hs', String.toList_inj.1 happ]) (String.toList_inj.1 hkind)
    (String.toList_inj.1 hparams) hending hsome

/-- A signature is told by its text in a comment, its kind and its parameters. -/
theorem commentText_inj {position : Nat} (hs : s.name = Symbol.application position s.kind)
    (hs' : s'.name = Symbol.application position s'.kind) (hkind : s.kind = s'.kind)
    (hparams : s.params = s'.params) (hsome : s.version.isSome = s'.version.isSome)
    (h : Source.commentText s.text = Source.commentText s'.text) : s = s' := by
  have hname : s.name = s'.name := by rw [hs, hs', hkind]
  have hcomment : ∀ s : Signature, Source.commentChars s.text.toList =
      Source.commentChars (s.name.toList ++ ':' :: ' ' :: (s.kind.toList ++ '(' :: s.params.toList)) ++
        ')' :: s.ending := by
    intro s
    rw [toList_text, Source.commentChars_append (by decide)]
    refine congrArg _ (Source.commentChars_eq_self ?_ ?_)
    · simp [notMem_ending s (c := '*') (by decide) (by decide)]
    · simp [notMem_ending s (c := '\n') (by decide) (by decide)]
  replace h := congrArg String.toList h
  rw [Source.commentText, Source.commentText, String.toList_ofList, String.toList_ofList, hcomment,
    hcomment, hname, hkind, hparams] at h
  exact eq_of_ending hname hkind hparams (List.cons.inj (List.append_cancel_left h)).2 hsome

end Signature

/-! ## Requirements -/

/-- The requirements that the header shows, under their labels. -/
def Link.shown (l : Link) : List (String × List String) :=
  [("headers", l.headers), ("libraries", l.libraries), ("lib_dirs", l.libDirs),
    ("include_dirs", l.includeDirs), ("compile_flags", l.compileFlags), ("link_flags", l.linkFlags)]

theorem Link.eq_of_shown {l l' : Link} (h : l.shown = l'.shown) (hinit : l.initCode = l'.initCode) :
    l = l' := by
  obtain ⟨headers, libraries, libDirs, includeDirs, compileFlags, linkFlags, initCode⟩ := l
  simp only [Link.shown, List.cons.injEq, Prod.mk.injEq, true_and, and_true] at h
  obtain ⟨rfl, rfl, rfl, rfl, rfl, rfl⟩ := h
  cases hinit
  rfl

namespace Module

/-- Requirements that can be read off the header. -/
def Readable (values : List String) : Prop :=
  Source.commentText (" ".intercalate values) = " ".intercalate values ∧ ∀ v ∈ values, ' ' ∉ v.toList

theorem linkLines_eq (l : Link) : linkLines l = l.shown.flatMap fun e => linkLine e.1 e.2 := by
  simp [linkLines, Link.shown]

theorem mem_linkLine {label line : String} {values : List String} (h : line ∈ linkLine label values) :
    line = " * " ++ label ++ ": " ++ Source.commentText (" ".intercalate values) := by
  unfold linkLine at h
  split at h
  · cases h
  · exact List.mem_singleton.1 h

/-- A line tells its label. -/
theorem label_inj {label label' text text' : String} (h : ':' ∉ label.toList) (h' : ':' ∉ label'.toList)
    (heq : " * " ++ label ++ ": " ++ text = " * " ++ label' ++ ": " ++ text') :
    label = label' ∧ text = text' := by
  replace heq := congrArg String.toList heq
  simp only [String.toList_append, List.append_assoc] at heq
  obtain ⟨hlabel, htext⟩ := Text.append_cons_inj_first h h' (List.append_cancel_left heq)
  exact ⟨String.toList_inj.1 hlabel, String.toList_inj.1 (List.cons.inj htext).2⟩

theorem readable_inj {values values' : List String} (hne : values ≠ []) (hne' : values' ≠ [])
    (h : Readable values) (h' : Readable values')
    (heq : Source.commentText (" ".intercalate values) = Source.commentText (" ".intercalate values')) :
    values = values' := by
  rw [h.1, h'.1] at heq
  exact Text.intercalate_inj rfl hne hne' h.2 h'.2 heq

theorem label_mem {label text : String} {entries : List (String × List String)} {rest : List String}
    (hlabel : ':' ∉ label.toList) (hcolon : ∀ l ∈ entries.map (·.1), ':' ∉ l.toList)
    (h : (entries.flatMap fun e => linkLine e.1 e.2) = (" * " ++ label ++ ": " ++ text) :: rest) :
    label ∈ entries.map (·.1) := by
  have hline : " * " ++ label ++ ": " ++ text ∈ entries.flatMap fun e => linkLine e.1 e.2 :=
    h ▸ List.mem_cons_self
  obtain ⟨e, he, hline⟩ := List.mem_flatMap.1 hline
  have hmem : e.1 ∈ entries.map (·.1) := List.mem_map_of_mem he
  obtain ⟨rfl, -⟩ := label_inj hlabel (hcolon _ hmem) (mem_linkLine hline)
  exact hmem

/-- Labelled lists are told by their lines, which are not there for the empty ones. -/
theorem linkLines_inj {shown shown' : List (String × List String)}
    (hlabels : shown.map (·.1) = shown'.map (·.1)) (hnodup : (shown.map (·.1)).Nodup)
    (hcolon : ∀ label ∈ shown.map (·.1), ':' ∉ label.toList)
    (h : ∀ e ∈ shown, Readable e.2) (h' : ∀ e ∈ shown', Readable e.2)
    (heq : (shown.flatMap fun e => linkLine e.1 e.2) = shown'.flatMap fun e => linkLine e.1 e.2) :
    shown = shown' := by
  induction shown generalizing shown' with
  | nil =>
    obtain rfl : shown' = [] := by simpa using hlabels.symm
    rfl
  | cons e shown ih =>
    obtain ⟨label, values⟩ := e
    obtain ⟨⟨label', values'⟩, shown', rfl, hlabel, hrest⟩ := List.map_eq_cons_iff.1 hlabels.symm
    obtain rfl : label' = label := hlabel
    rw [List.map_cons, List.nodup_cons] at hnodup
    rw [List.map_cons, List.forall_mem_cons] at hcolon
    have hcolon' : ∀ l ∈ shown'.map (·.1), ':' ∉ l.toList := hrest ▸ hcolon.2
    have hnotMem' : label' ∉ shown'.map (·.1) := hrest ▸ hnodup.1
    rw [List.forall_mem_cons] at h h'
    rw [List.flatMap_cons, List.flatMap_cons] at heq
    cases values with
    | nil =>
      cases values' with
      | nil => rw [ih hrest.symm hnodup.2 hcolon.2 h.2 h'.2 heq]
      | cons v' values' =>
        exact absurd (label_mem hcolon.1 hcolon.2 heq) hnodup.1
    | cons v values =>
      cases values' with
      | nil => exact absurd (label_mem hcolon.1 hcolon' heq.symm) hnotMem'
      | cons v' values' =>
        obtain ⟨hline, htail⟩ := List.cons.inj heq
        rw [readable_inj (List.cons_ne_nil _ _) (List.cons_ne_nil _ _) h.1 h'.1
          (label_inj hcolon.1 hcolon.1 hline).2, ih hrest.symm hnodup.2 hcolon.2 h.2 h'.2 htail]

/-! ## The header -/

theorem mem_linkLines {l : Link} {line : String} (h : line ∈ linkLines l) : ∃ e ∈ l.shown,
    line = " * " ++ e.1 ++ ": " ++ Source.commentText (" ".intercalate e.2) := by
  rw [linkLines_eq] at h
  obtain ⟨e, he, h⟩ := List.mem_flatMap.1 h
  exact ⟨e, he, mem_linkLine h⟩

theorem labels_shown (l : Link) : l.shown.map (·.1) =
    ["headers", "libraries", "lib_dirs", "include_dirs", "compile_flags", "link_flags"] := rfl

/-- The lines of the header up to the one that ends it. -/
def headerLines (inputs outputs : List Binding) (signatures : List Signature) (link : Link) :
    List String :=
  ["/* fusejit generated module",
    " * abi: " ++ toString abiVersion,
    " * inputs: [" ++ Signature.bindingsText inputs ++ "]",
    " * outputs: [" ++ Signature.bindingsText outputs ++ "]"] ++
    (signatures.map fun s => " * " ++ Source.commentText s.text) ++ linkLines link

section

variable {inputs outputs inputs' outputs' : List Binding} {signatures signatures' : List Signature}
  {link link' : Link}

theorem header_eq (inputs outputs : List Binding) (signatures : List Signature) (link : Link) :
    header inputs outputs signatures link =
      .lines (headerLines inputs outputs signatures link ++ [" */", ""]) := rfl

theorem mem_headerLines {line : String} (h : line ∈ headerLines inputs outputs signatures link) :
    line = "/* fusejit generated module" ∨ ∃ text, line = " * " ++ text ∧ '\n' ∉ text.toList := by
  have hbindings : ∀ (label : String) (bs : List Binding), '\n' ∉ label.toList →
      '\n' ∉ (label ++ Signature.bindingsText bs ++ "]").toList := by
    intro label bs hlabel
    have hbs := Signature.notMem_bindingsText bs (c := '\n') (by decide) (by decide)
    simp [hlabel, hbs]
  simp only [headerLines, List.mem_append, List.mem_cons, List.not_mem_nil, or_false] at h
  rcases h with ((rfl | rfl | rfl | rfl) | h) | h
  · exact .inl rfl
  · exact .inr ⟨"abi: " ++ toString abiVersion, by decide, by decide⟩
  · refine .inr ⟨"inputs: [" ++ Signature.bindingsText inputs ++ "]", ?_, hbindings _ _ (by decide)⟩
    rw [← String.append_assoc, ← String.append_assoc]
    rfl
  · refine .inr ⟨"outputs: [" ++ Signature.bindingsText outputs ++ "]", ?_, hbindings _ _ (by decide)⟩
    rw [← String.append_assoc, ← String.append_assoc]
    rfl
  · obtain ⟨s, -, rfl⟩ := List.mem_map.1 h
    exact .inr ⟨_, rfl, Source.newline_notMem_commentText _⟩
  · obtain ⟨e, he, rfl⟩ := mem_linkLines h
    refine .inr ⟨e.1 ++ ": " ++ Source.commentText (" ".intercalate e.2), ?_, ?_⟩
    · rw [← String.append_assoc, ← String.append_assoc]
    · have hlabel : e.1 ∈ link.shown.map (·.1) := List.mem_map_of_mem he
      have hnewline : ∀ label ∈ link.shown.map (·.1), '\n' ∉ label.toList := by
        rw [labels_shown]
        decide
      simp [hnewline _ hlabel, Source.newline_notMem_commentText]

theorem toList_lines (lines : List String) : (String.join (lines.map (· ++ "\n"))).toList =
    (lines.map String.toList).flatMap (· ++ ['\n']) := by
  simp [String.toList_join, List.flatMap_map]

theorem toList_closed (lines : List String) (rest : String) :
    (String.join ((lines ++ [" */", ""]).map (· ++ "\n")) ++ rest).toList =
      (lines.map String.toList).flatMap (· ++ ['\n']) ++ (" */".toList ++ '\n' :: '\n' :: rest.toList) := by
  rw [String.toList_append, toList_lines, List.map_append, List.flatMap_append, List.append_assoc]
  rfl

/-- A header is told by its text, whatever follows. -/
theorem headerLines_inj {rest rest' : String}
    (h : String.join ((headerLines inputs outputs signatures link ++ [" */", ""]).map (· ++ "\n")) ++ rest =
      String.join ((headerLines inputs' outputs' signatures' link' ++ [" */", ""]).map (· ++ "\n")) ++
        rest') :
    headerLines inputs outputs signatures link = headerLines inputs' outputs' signatures' link' := by
  have hline : ∀ inputs outputs signatures link,
      ∀ line ∈ (headerLines inputs outputs signatures link).map String.toList,
        '\n' ∉ line ∧ line ≠ " */".toList := by
    intro inputs outputs signatures link line hline
    obtain ⟨line, hmem, rfl⟩ := List.mem_map.1 hline
    rcases mem_headerLines hmem with rfl | ⟨text, rfl, htext⟩
    · exact ⟨by decide, by decide⟩
    · constructor
      · simp [htext]
      · simp
  replace h := congrArg String.toList h
  rw [toList_closed, toList_closed] at h
  exact List.map_injective_iff.2 (fun _ _ => String.toList_inj.1)
    (Text.lines_inj (by decide) (hline _ _ _ _) (hline _ _ _ _) h)

end

variable {g g' : Graph} {m m' : Module} {link : Link}

/-- A module starts with its header. -/
theorem exists_source_eq (h : Assembly.assemble g = .ok m) : ∃ rest, m.source =
    String.join ((headerLines m.inputs m.outputs m.applications m.link ++ [" */", ""]).map (· ++ "\n")) ++
      rest := by
  obtain ⟨p, q, -, hq, rfl⟩ := Assembly.assemble_eq_ok h
  obtain ⟨hopening, -⟩ := Assembly.parts_eq_ok hq
  obtain ⟨head, hhead, hopening⟩ := Outcome.bind_eq_ok.1 hopening
  obtain ⟨rest, -, hopening⟩ := Outcome.bind_eq_ok.1 hopening
  rw [header_eq] at hhead
  refine ⟨rest ++ q.globals ++ q.entry ++ q.init ++ q.abi, ?_⟩
  have hopen : q.opening = head ++ rest := (Except.ok.inj hopening).symm
  rw [Except.ok.inj hhead, Parts.text, hopen]
  simp only [String.append_assoc]

/-- Whether a line of the header could be that of a signature. -/
def startsName (line : String) : Bool := (line.toList.drop 3).head? == some 'n'

theorem startsName_signature {s : Signature} (hname : s.name.toList.head? = some 'n') :
    startsName (" * " ++ s.text) = true := by
  obtain ⟨rest, hrest⟩ := List.head?_eq_some_iff.1 hname
  simp [startsName, Signature.toList_text, hrest]

theorem startsName_link {line : String} (h : line ∈ linkLines link) : startsName line = false := by
  obtain ⟨e, he, rfl⟩ := mem_linkLines h
  simp only [Link.shown, List.mem_cons, List.not_mem_nil, or_false] at he
  rcases he with rfl | rfl | rfl | rfl | rfl | rfl <;> simp [startsName]

theorem tail_inj {lines lines' : List String} (h : ∀ line ∈ lines, startsName line = true)
    (h' : ∀ line ∈ lines', startsName line = true) {l l' : Link}
    (heq : lines ++ linkLines l = lines' ++ linkLines l') :
    lines = lines' ∧ linkLines l = linkLines l' := by
  have hfilter := congrArg (List.filter startsName) heq
  have hlink : ∀ l, (linkLines l).filter startsName = [] := fun l =>
    List.filter_eq_nil_iff.2 fun line hline => by simp [startsName_link hline]
  rw [List.filter_append, List.filter_append, List.filter_eq_self.2 h, List.filter_eq_self.2 h', hlink,
    hlink, List.append_nil, List.append_nil] at hfilter
  subst hfilter
  exact ⟨rfl, List.append_cancel_left heq⟩

theorem bracketed_inj {label : String} {bs bs' : List Binding}
    (h : label ++ Signature.bindingsText bs ++ "]" = label ++ Signature.bindingsText bs' ++ "]") :
    bs = bs' := by
  replace h := congrArg String.toList h
  simp only [String.toList_append, List.append_assoc] at h
  exact Signature.bindingsText_inj
    (String.toList_inj.1 (List.append_cancel_right (List.append_cancel_left h)))

end Module

end OpFusion
