import TextTemplate.Library.Decode
import TextTemplate.Proofs.JsonText

/-!
# Documents of libraries

A library is written as an object of objects.  A writer chooses the order of the fields in each of
them, whether a text that is absent is left out or written as null, and whether a flag that is not
set and a list of scopes or templates that is empty are left out.  The relations `Written` leave all
these choices open, and `Library.Document` leaves open as well how the object is spelled as a JSON
text.

Whatever the choices, what is read from the document is the library (`Library.parse?_eq_some_iff`),
just if neither a line separator nor a paragraph separator stands in a string as it is; and each
library has such a document (`Library.exists_document`).

The order of the fields does not matter because the reader only looks names up, and no name stands
twice.  So the reader is run on the fields in the order in which the relations list them.
-/

namespace TextTemplate

open Json5 (Value)

/-! ## What documents write -/

/-- An object with some fields. -/
def Json5.Value.record (fs : Fields) : Value := .object (fs.map fun f => (some f.1, f.2))

/-- A text, or null for none. -/
def Json5.Value.ofText? : Option String → Value
  | some s => .string (some s)
  | none => .null

/-- The fields that write a value under a name; a value that is the default may be left out. -/
inductive Fields.Optional (k : String) (default : Value) : Value → Fields → Prop
  | given (v : Value) : Optional k default v [(k, v)]
  | absent : Optional k default default []

mutual

/-- The values that write an element: a string for a text, an object with its kind for others. -/
inductive ElementSpec.Written : ElementSpec → Value → Prop
  | text (s : String) : Written (.text s) (.string (some s))
  | directive {e : ElementSpec} {kind : String} {fs gs : Fields} : Directive e kind fs →
      gs.Perm (("kind", .string (some kind)) :: fs) → Written e (.record gs)

/-- The kind of an element and the fields that write it. -/
inductive ElementSpec.Directive : ElementSpec → String → Fields → Prop
  | point : Directive .point "point" []
  | prompt {p : Prompt} {ns as : Fields} : ns.Optional "name" .null (.ofText? p.name) →
      as.Optional "always" (.bool false) (.bool p.always) →
      Directive (.prompt p) "prompt" (("prompt", .string (some p.text)) :: (ns ++ as))
  | region {prompt name : Option String} {always indent : Bool} {ps ns as is : Fields} :
      ps.Optional "prompt" .null (.ofText? prompt) → ns.Optional "name" .null (.ofText? name) →
      as.Optional "always" (.bool false) (.bool always) →
      is.Optional "indent" (.bool false) (.bool indent) →
      Directive (.region prompt name always indent) "region" (ps ++ (ns ++ (as ++ is)))
  | newline : Directive .newline "newline" []
  | newlineIndent : Directive .newlineIndent "newline_indent" []
  | conditionalNewline : Directive .conditionalNewline "conditional_newline" []
  | conditionalNewlineAfter : Directive .conditionalNewlineAfter "conditional_newline_after" []
  | indent : Directive .indent "indent" []
  | saved (name : String) : Directive (.saved name) "saved" [("name", .string (some name))]
  | list {es : List ElementSpec} {vs : List Value} : AllWritten es vs →
      Directive (.list es) "list" [("elements", .array vs)]
  | symbol (name : String) : Directive (.symbol name) "symbol" [("name", .string (some name))]
  | empty : Directive .empty "empty" []
  | includes (template : String) :
      Directive (.includes template) "include" [("template", .string (some template))]

/-- The values that write some elements. -/
inductive ElementSpec.AllWritten : List ElementSpec → List Value → Prop
  | nil : AllWritten [] []
  | cons {e : ElementSpec} {es : List ElementSpec} {v : Value} {vs : List Value} : Written e v →
      AllWritten es vs → AllWritten (e :: es) (v :: vs)

end

/-- The values that write a scope. -/
inductive ScopeSpec.Written : ScopeSpec → Value → Prop
  | record {s : ScopeSpec} {fs gs : Fields} : fs.Optional "finder" .null (.ofText? s.finder) →
      gs.Perm (("name", .string (some s.name)) :: fs) → Written s (.record gs)

/-- The values that write a template. -/
inductive TemplateSpec.Written : TemplateSpec → Value → Prop
  | record {t : TemplateSpec} {ts ss gs : Fields} {vs : List Value} :
      ts.Optional "tag" .null (.ofText? t.tag) → ss.Optional "scope" .null (.ofText? t.scope) →
      ElementSpec.AllWritten t.elements vs →
      gs.Perm (("name", .string (some t.name)) :: (ts ++ (ss ++ [("elements", .array vs)]))) →
      Written t (.record gs)

/-- The values that write a library. -/
inductive Library.Written : Library → Value → Prop
  | record {L : Library} {ss ts gs : Fields} {vs ws : List Value} :
      L.scopes.Forall₂ ScopeSpec.Written vs → L.templates.Forall₂ TemplateSpec.Written ws →
      ss.Optional "scopes" (.array []) (.array vs) →
      ts.Optional "templates" (.array []) (.array ws) →
      gs.Perm (ss ++ ts) → Written L (.record gs)

/-- Whether a document writes a library. -/
def Library.Document (L : Library) (s : String) : Prop :=
  ∃ v, L.Written v ∧ Json.Document v s

/-! ## Fields in any order -/

namespace Fields

variable {fs gs : Fields} {names : List String}

theorem lookup_eq_of_perm (h : fs.Perm gs) (hfs : (fs.map Prod.fst).Nodup) (k : String) :
    fs.lookup k = gs.lookup k := by
  induction h with
  | nil => rfl
  | cons f _ ih =>
    rw [List.lookup_cons, List.lookup_cons, ih (List.nodup_cons.mp hfs).2]
  | swap f g fs =>
    have hne : g.1 ≠ f.1 := by
      have := (List.nodup_cons.mp hfs).1
      rw [List.map_cons, List.mem_cons, not_or] at this
      exact this.1
    grind
  | trans h _ ih ih' => rw [ih hfs, ih' ((h.map Prod.fst).nodup_iff.mp hfs)]

theorem ofPairs?_map (fs : Fields) : ofPairs? (fs.map fun f => (some f.1, f.2)) = some fs := by
  induction fs with
  | nil => rfl
  | cons f fs ih => rw [List.map_cons, ofPairs?, ih, Option.map_some]

/-- Fields are selected, since none stands twice. -/
theorem select?_of_nodup (hfs : (fs.map Prod.fst).Nodup) (names : List String) :
    select? names fs = some (fs.filter fun f => names.contains f.1) :=
  if_pos (hfs.sublist (List.filter_sublist.map Prod.fst))

/-- The fields of a record are those that it lists, whatever their order. -/
theorem ofRecord?_record (h : gs.Perm fs) (hnames : (fs.map Prod.fst).Sublist names)
    (hnodup : names.Nodup) :
    ∃ hs : Fields, ofRecord? names (.record gs) = some hs ∧ ∀ k, hs.lookup k = fs.lookup k := by
  have hfs : (fs.map Prod.fst).Nodup := hnodup.sublist hnames
  have hgs : (gs.map Prod.fst).Nodup := (h.map Prod.fst).nodup_iff.mpr hfs
  have hall : ∀ f ∈ gs, names.contains f.1 = true := fun f hf =>
    List.contains_iff_mem.mpr (hnames.subset (List.mem_map_of_mem (h.mem_iff.mp hf)))
  refine ⟨gs, ?_, lookup_eq_of_perm h hgs⟩
  simp only [ofRecord?, Json5.Value.record, ofPairs?_map, Option.bind_eq_bind, Option.bind_some]
  rw [if_pos (List.all_eq_true.mpr hall), select?_of_nodup hgs, List.filter_eq_self.mpr hall]

namespace Optional

variable {k k' : String} {default v : Value}

theorem keys_sublist (h : fs.Optional k default v) : (fs.map Prod.fst).Sublist [k] := by
  cases h with
  | given => exact List.Sublist.refl [k]
  | absent => exact List.nil_sublist [k]

theorem lookup_of_ne (h : fs.Optional k default v) (hk : k' ≠ k) : fs.lookup k' = none := by
  cases h with
  | given => simp [hk]
  | absent => rfl

/-- A value that is left out is read as the default. -/
theorem optional?_eq {α : Type} {a b : α} {read : Value → Option α} (h : fs.Optional k default v)
    (hgs : gs.lookup k = fs.lookup k) (hdefault : read default = some a) (hv : read v = some b) :
    gs.optional? k a read = some b := by
  rw [optional?, hgs]
  cases h with
  | given =>
    rw [List.lookup_cons_self]
    exact hv
  | absent => exact hdefault.symm.trans hv

theorem mem (h : fs.Optional k default v) {f : String × Value} (hf : f ∈ fs) : f = (k, v) := by
  cases h with
  | given => exact List.mem_singleton.mp hf
  | absent => exact absurd hf List.not_mem_nil

end Optional

end Fields

/-! ## Depth and readability -/

namespace Json5.Value

theorem depth_lt_array {v : Value} {vs : List Value} (hv : v ∈ vs) :
    v.depth < (Value.array vs).depth := by
  rw [depth]
  induction vs with
  | nil => exact absurd hv List.not_mem_nil
  | cons v' vs ih =>
    rw [depths]
    rcases List.mem_cons.mp hv with rfl | hv
    · omega
    · have := ih hv
      omega

theorem depth_lt_record {f : String × Value} {fs : Fields} (hf : f ∈ fs) :
    f.2.depth < (record fs).depth := by
  rw [record, depth]
  induction fs with
  | nil => exact absurd hf List.not_mem_nil
  | cons f' fs ih =>
    rw [List.map_cons, fieldDepths]
    rcases List.mem_cons.mp hf with rfl | hf
    · omega
    · have := ih hf
      omega

theorem readable_record {fs : Fields} (h : ∀ f ∈ fs, f.2.readable = true) :
    (record fs).readable = true := by
  rw [record, readable]
  induction fs with
  | nil => rfl
  | cons f fs ih =>
    obtain ⟨hf, hfs⟩ := List.forall_mem_cons.mp h
    rw [List.map_cons, fieldsReadable, hf, ih hfs]
    rfl

theorem optionalText?_ofText? (o : Option String) : (ofText? o).optionalText? = some o := by
  cases o <;> rfl

theorem readable_ofText? (o : Option String) : (ofText? o).readable = true := by
  cases o <;> rfl

end Json5.Value

/-! ## Elements -/

namespace ElementSpec

variable {e : ElementSpec} {kind : String} {fs gs : Fields}

/-- An element has the fields of its kind, in their order. -/
theorem Directive.exists_names (h : Directive e kind fs) :
    ∃ names, fieldNames? kind = some names ∧ (fs.map Prod.fst).Sublist names ∧
      ("kind" :: names).Nodup := by
  cases h with
  | prompt hns has =>
    refine ⟨_, rfl, ?_, by decide⟩
    rw [List.map_cons, List.map_append]
    exact (hns.keys_sublist.append has.keys_sublist).cons_cons "prompt"
  | region hps hns has his =>
    refine ⟨_, rfl, ?_, by decide⟩
    rw [List.map_append, List.map_append, List.map_append]
    exact hps.keys_sublist.append
      (hns.keys_sublist.append (has.keys_sublist.append his.keys_sublist))
  | saved | list | symbol | includes => exact ⟨_, rfl, List.Sublist.refl _, by decide⟩
  | point | newline | newlineIndent | conditionalNewline | conditionalNewlineAfter | indent |
    empty => exact ⟨_, rfl, List.Sublist.refl _, by decide⟩

/-- The kind and the fields of an element are found in any order. -/
theorem Directive.kindAndFields?_record (h : Directive e kind fs)
    (hgs : gs.Perm (("kind", .string (some kind)) :: fs)) :
    ∃ hs : Fields, kindAndFields? (.record gs) = some (kind, hs) ∧
      ∀ k, hs.lookup k = fs.lookup k := by
  obtain ⟨names, hnames, hsub, hnodup⟩ := h.exists_names
  have hkeys : ((("kind", Value.string (some kind)) :: fs).map Prod.fst).Nodup :=
    hnodup.sublist (hsub.cons_cons "kind")
  have hgsKeys : (gs.map Prod.fst).Nodup := (hgs.map Prod.fst).nodup_iff.mpr hkeys
  have hkind : (gs.filter fun f => ["kind"].contains f.1).lookup "kind" =
      some (.string (some kind)) := by
    rw [Fields.lookup_eq_of_perm (hgs.filter fun f => ["kind"].contains f.1)
      (hgsKeys.sublist (List.filter_sublist.map Prod.fst))]
    rfl
  have hself : ((("kind", Value.string (some kind)) :: fs).filter fun f => names.contains f.1) =
      fs := by
    have hkind : names.contains "kind" = false := by
      simpa using (List.nodup_cons.mp hnodup).1
    rw [List.filter_cons_of_neg (by rw [hkind]; exact Bool.false_ne_true), List.filter_eq_self]
    exact fun f hf => List.contains_iff_mem.mpr (hsub.subset (List.mem_map_of_mem hf))
  refine ⟨gs.filter fun f => names.contains f.1, ?_, fun k => ?_⟩
  · simp only [kindAndFields?, Value.record, Fields.ofPairs?_map, Option.bind_eq_bind,
      Option.bind_some, Fields.select?_of_nodup hgsKeys, Fields.required?, hkind, Value.text?,
      hnames]
    rfl
  · have hperm := hgs.filter fun f => names.contains f.1
    rw [hself] at hperm
    exact Fields.lookup_eq_of_perm hperm (hgsKeys.sublist (List.filter_sublist.map Prod.fst)) k

theorem ofFields?_congr {read : Value → Option ElementSpec} (h : ∀ k, fs.lookup k = gs.lookup k) :
    ofFields? read kind fs = ofFields? read kind gs := by
  simp only [ofFields?, Fields.required?, Fields.optional?, h]

mutual

theorem Written.readable : ∀ {e : ElementSpec} {v : Value}, Written e v → v.readable = true
  | _, _, .text _ => rfl
  | _, _, .directive hd hgs => by
    refine Value.readable_record fun f hf => ?_
    rcases List.mem_cons.mp (hgs.mem_iff.mp hf) with rfl | hf
    · rfl
    · exact hd.readable f hf

theorem Directive.readable : ∀ {e : ElementSpec} {kind : String} {fs : Fields},
    Directive e kind fs → ∀ f ∈ fs, f.2.readable = true
  | _, _, _, .prompt hns has, f, hf => by
    rcases List.mem_cons.mp hf with rfl | hf
    · rfl
    · rcases List.mem_append.mp hf with hf | hf
      · rw [hns.mem hf]
        exact Value.readable_ofText? _
      · rw [has.mem hf]
        rfl
  | _, _, _, .region hps hns has his, f, hf => by
    rcases List.mem_append.mp hf with hf | hf
    · rw [hps.mem hf]
      exact Value.readable_ofText? _
    rcases List.mem_append.mp hf with hf | hf
    · rw [hns.mem hf]
      exact Value.readable_ofText? _
    rcases List.mem_append.mp hf with hf | hf
    · rw [has.mem hf]
      rfl
    · rw [his.mem hf]
      rfl
  | _, _, _, .list hvs, f, hf => by
    rw [List.mem_singleton.mp hf]
    exact hvs.readable
  | _, _, _, .saved _, f, hf | _, _, _, .symbol _, f, hf | _, _, _, .includes _, f, hf => by
    rw [List.mem_singleton.mp hf]
    rfl
  | _, _, _, .point, f, hf | _, _, _, .newline, f, hf | _, _, _, .newlineIndent, f, hf
  | _, _, _, .conditionalNewline, f, hf | _, _, _, .conditionalNewlineAfter, f, hf
  | _, _, _, .indent, f, hf | _, _, _, .empty, f, hf => absurd hf List.not_mem_nil

theorem AllWritten.readable : ∀ {es : List ElementSpec} {vs : List Value}, AllWritten es vs →
    (Value.array vs).readable = true
  | _, _, .nil => rfl
  | _, _, .cons hv hvs => by
    have := hvs.readable
    rw [Value.readable] at this ⊢
    rw [Value.allReadable, hv.readable, this]
    rfl

end

mutual

/-- An element is read whatever is chosen to write it. -/
theorem Written.ofValueWithin?_eq : ∀ {e : ElementSpec} {v : Value}, Written e v → ∀ {n : Nat},
    v.depth < n → ofValueWithin? n v = some e
  | _, _, .text _, n + 1, _ => rfl
  | _, _, @Written.directive _ _ fs gs hd hgs, n + 1, hn => by
    obtain ⟨hs, hkind, hlookup⟩ := hd.kindAndFields?_record hgs
    have hdepth : ∀ f ∈ fs, f.2.depth < n := fun f hf => by
      have := Value.depth_lt_record (hgs.mem_iff.mpr (List.mem_cons_of_mem _ hf))
      omega
    have hwithin : ofValueWithin? (n + 1) (.record gs) =
        (kindAndFields? (.record gs)).bind fun (kind, fs) =>
          ofFields? (ofValueWithin? n) kind fs := rfl
    rw [hwithin, hkind, Option.bind_some]
    exact (ofFields?_congr hlookup).trans (hd.ofFields?_eq hdepth)

theorem Directive.ofFields?_eq : ∀ {e : ElementSpec} {kind : String} {fs : Fields},
    Directive e kind fs → ∀ {n : Nat}, (∀ f ∈ fs, f.2.depth < n) →
      ofFields? (ofValueWithin? n) kind fs = some e
  | _, _, _, @Directive.prompt p ns as hns has, n, _ => by
    have hname : Fields.optional? (("prompt", .string (some p.text)) :: (ns ++ as)) "name" none
        Value.optionalText? = some p.name := by
      refine hns.optional?_eq ?_ rfl (Value.optionalText?_ofText? _)
      simp [List.lookup_cons, List.lookup_append, has.lookup_of_ne (by decide : "name" ≠ "always")]
    have halways : Fields.optional? (("prompt", .string (some p.text)) :: (ns ++ as)) "always" false
        Value.flag? = some p.always := by
      refine has.optional?_eq ?_ rfl rfl
      simp [List.lookup_cons, List.lookup_append, hns.lookup_of_ne (by decide : "always" ≠ "name")]
    simp [ofFields?, Fields.required?, Value.text?, hname, halways]
  | _, _, _, @Directive.region asked name always indented ps ns as is hps hns has his, n, _ => by
    have hprompt : Fields.optional? (ps ++ (ns ++ (as ++ is))) "prompt" none
        Value.optionalText? = some asked := by
      refine hps.optional?_eq ?_ rfl (Value.optionalText?_ofText? _)
      simp [List.lookup_append, hns.lookup_of_ne (by decide : "prompt" ≠ "name"),
        has.lookup_of_ne (by decide : "prompt" ≠ "always"),
        his.lookup_of_ne (by decide : "prompt" ≠ "indent")]
    have hname : Fields.optional? (ps ++ (ns ++ (as ++ is))) "name" none
        Value.optionalText? = some name := by
      refine hns.optional?_eq ?_ rfl (Value.optionalText?_ofText? _)
      simp [List.lookup_append, hps.lookup_of_ne (by decide : "name" ≠ "prompt"),
        has.lookup_of_ne (by decide : "name" ≠ "always"),
        his.lookup_of_ne (by decide : "name" ≠ "indent")]
    have halways : Fields.optional? (ps ++ (ns ++ (as ++ is))) "always" false
        Value.flag? = some always := by
      refine has.optional?_eq ?_ rfl rfl
      simp [List.lookup_append, hps.lookup_of_ne (by decide : "always" ≠ "prompt"),
        hns.lookup_of_ne (by decide : "always" ≠ "name"),
        his.lookup_of_ne (by decide : "always" ≠ "indent")]
    have hindent : Fields.optional? (ps ++ (ns ++ (as ++ is))) "indent" false
        Value.flag? = some indented := by
      refine his.optional?_eq ?_ rfl rfl
      simp [List.lookup_append, hps.lookup_of_ne (by decide : "indent" ≠ "prompt"),
        hns.lookup_of_ne (by decide : "indent" ≠ "name"),
        has.lookup_of_ne (by decide : "indent" ≠ "always")]
    simp [ofFields?, hprompt, hname, halways, hindent]
  | _, _, _, @Directive.list es vs hvs, n, hn => by
    have hdepth : ∀ v ∈ vs, v.depth < n := fun v hv =>
      Nat.lt_trans (Value.depth_lt_array hv) (hn _ List.mem_cons_self)
    have hfields : ofFields? (ofValueWithin? n) "list" [("elements", .array vs)] =
        (vs.mapM (ofValueWithin? n)).map ElementSpec.list := rfl
    rw [hfields, hvs.mapM_eq hdepth, Option.map_some]
  | _, _, _, .saved _, _, _ | _, _, _, .symbol _, _, _ | _, _, _, .includes _, _, _ => rfl
  | _, _, _, .point, _, _ | _, _, _, .newline, _, _ | _, _, _, .newlineIndent, _, _
  | _, _, _, .conditionalNewline, _, _ | _, _, _, .conditionalNewlineAfter, _, _
  | _, _, _, .indent, _, _ | _, _, _, .empty, _, _ => rfl

theorem AllWritten.mapM_eq : ∀ {es : List ElementSpec} {vs : List Value}, AllWritten es vs →
    ∀ {n : Nat}, (∀ v ∈ vs, v.depth < n) → vs.mapM (ofValueWithin? n) = some es
  | _, _, .nil, _, _ => rfl
  | _, _, .cons hv hvs, n, hn => by
    obtain ⟨hdepth, hdepths⟩ := List.forall_mem_cons.mp hn
    rw [List.mapM_cons, hv.ofValueWithin?_eq hdepth, hvs.mapM_eq hdepths]
    rfl

end

/-- An element is read from each value that writes it. -/
theorem Written.ofValue?_eq {e : ElementSpec} {v : Value} (h : Written e v) :
    ElementSpec.ofValue? v = some e := by
  rw [ElementSpec.ofValue?, if_pos h.readable]
  exact h.ofValueWithin?_eq (Nat.lt_succ_self _)

theorem AllWritten.mapM_ofValue?_eq {es : List ElementSpec} {vs : List Value}
    (h : AllWritten es vs) : vs.mapM ElementSpec.ofValue? = some es := by
  induction es generalizing vs with
  | nil =>
    cases h
    rfl
  | cons e es ih =>
    cases h with
    | cons hv hvs =>
      rw [List.mapM_cons, hv.ofValue?_eq, ih hvs]
      rfl

end ElementSpec

/-! ## Libraries -/

/-- A scope is read from each value that writes it. -/
theorem ScopeSpec.Written.ofValue?_eq {s : ScopeSpec} {v : Value} (h : s.Written v) :
    ScopeSpec.ofValue? v = some s := by
  cases h with
  | @record fs gs hfinder hgs =>
    have hkeys : ((("name", Value.string (some s.name)) :: fs).map Prod.fst).Sublist
        ["name", "finder"] := hfinder.keys_sublist.cons_cons "name"
    obtain ⟨hs, hrecord, hlookup⟩ := Fields.ofRecord?_record hgs hkeys (by decide)
    have hname : hs.required? "name" Value.text? = some s.name := by
      rw [Fields.required?, hlookup]
      rfl
    have hfinder : hs.optional? "finder" none Value.optionalText? = some s.finder := by
      refine hfinder.optional?_eq ?_ rfl (Value.optionalText?_ofText? _)
      rw [hlookup]
      rfl
    simp [ScopeSpec.ofValue?, hrecord, hname, hfinder]

/-- A template is read from each value that writes it. -/
theorem TemplateSpec.Written.ofValue?_eq {t : TemplateSpec} {v : Value} (h : t.Written v) :
    TemplateSpec.ofValue? v = some t := by
  cases h with
  | @record ts ss gs vs htag hscope helements hgs =>
    have hkeys : ((("name", Value.string (some t.name)) ::
        (ts ++ (ss ++ [("elements", .array vs)]))).map Prod.fst).Sublist
        ["name", "tag", "scope", "elements"] := by
      rw [List.map_cons, List.map_append, List.map_append]
      exact (htag.keys_sublist.append
        (hscope.keys_sublist.append (List.Sublist.refl _))).cons_cons "name"
    obtain ⟨hs, hrecord, hlookup⟩ := Fields.ofRecord?_record hgs hkeys (by decide)
    have hname : hs.required? "name" Value.text? = some t.name := by
      rw [Fields.required?, hlookup]
      rfl
    have htag' : hs.optional? "tag" none Value.optionalText? = some t.tag := by
      refine htag.optional?_eq ?_ rfl (Value.optionalText?_ofText? _)
      simp [hlookup, List.lookup_cons, List.lookup_append,
        hscope.lookup_of_ne (by decide : "tag" ≠ "scope")]
    have hscope' : hs.optional? "scope" none Value.optionalText? = some t.scope := by
      refine hscope.optional?_eq ?_ rfl (Value.optionalText?_ofText? _)
      simp [hlookup, List.lookup_cons, List.lookup_append,
        htag.lookup_of_ne (by decide : "scope" ≠ "tag")]
    have helements' : hs.required? "elements" (readArray? ElementSpec.ofValue?) =
        some t.elements := by
      rw [Fields.required?, hlookup]
      simp [List.lookup_cons, List.lookup_append,
        htag.lookup_of_ne (by decide : "elements" ≠ "tag"),
        hscope.lookup_of_ne (by decide : "elements" ≠ "scope"), readArray?,
        helements.mapM_ofValue?_eq]
    simp [TemplateSpec.ofValue?, hrecord, hname, htag', hscope', helements']

theorem mapM_eq_of_forall₂ {α : Type} {R : α → Value → Prop} {read : Value → Option α}
    (hread : ∀ a v, R a v → read v = some a) {as : List α} {vs : List Value}
    (h : as.Forall₂ R vs) : vs.mapM read = some as := by
  induction h with
  | nil => rfl
  | cons ha _ ih =>
    rw [List.mapM_cons, hread _ _ ha, ih]
    rfl

namespace Library

/-- A library is read from each value that writes it. -/
theorem Written.ofValue?_eq {L : Library} {v : Value} (h : L.Written v) :
    Library.ofValue? v = some L := by
  cases h with
  | @record ss ts gs vs ws hscopes htemplates hss hts hgs =>
    have hkeys : ((ss ++ ts).map Prod.fst).Sublist ["scopes", "templates"] := by
      rw [List.map_append]
      exact hss.keys_sublist.append hts.keys_sublist
    obtain ⟨hs, hrecord, hlookup⟩ := Fields.ofRecord?_record hgs hkeys (by decide)
    have hscopes' : hs.optional? "scopes" [] (readArray? ScopeSpec.ofValue?) = some L.scopes := by
      refine hss.optional?_eq ?_ rfl
        (mapM_eq_of_forall₂ (fun _ _ hs => hs.ofValue?_eq) hscopes)
      simp [hlookup, List.lookup_append, hts.lookup_of_ne (by decide : "scopes" ≠ "templates")]
    have htemplates' : hs.optional? "templates" [] (readArray? TemplateSpec.ofValue?) =
        some L.templates := by
      refine hts.optional?_eq ?_ rfl
        (mapM_eq_of_forall₂ (fun _ _ ht => ht.ofValue?_eq) htemplates)
      simp [hlookup, List.lookup_append, hss.lookup_of_ne (by decide : "templates" ≠ "scopes")]
    simp [Library.ofValue?, hrecord, hscopes', htemplates']

/-- A document of a library is read as the library, unless a separator stands in one of its
strings. -/
theorem Document.parse?_eq {L : Library} {s : String} (h : L.Document s) :
    Library.parse? s = Json.unlessSeparated s.toList L := by
  obtain ⟨v, hv, hs⟩ := h
  rw [Library.parse?, hs.parse?_eq]
  cases hany : s.toList.any Json.isSeparator with
  | true => simp [Json.unlessSeparated_of_any hany]
  | false => simp [Json.unlessSeparated_of_not_any hany, hv.ofValue?_eq]

/-- **A document of a library is read as that library**, whatever its writer chose, just if neither
a line separator nor a paragraph separator stands in it. -/
theorem parse?_eq_some_iff {L : Library} {s : String} (h : L.Document s) :
    Library.parse? s = some L ↔ s.toList.any Json.isSeparator = false := by
  rw [h.parse?_eq, Json.unlessSeparated_eq_some_iff]

/-- A document with fields in another order than declared, one that is null and others left out, and
with an escape in a list. -/
theorem parse?_nested_list :
    let L : Library := { templates := [
      { name := "a", elements := [.list [.text "\n", .prompt { text := "?", always := true }]] }] }
    let s := "\x7b\"templates\": [\x7b\"tag\":null,\"elements\":[\x7b\"elements\":[\"\\n\"," ++
      "\x7b\"always\":true,\"kind\":\"prompt\",\"prompt\":\"?\"\x7d],\"kind\":\"list\"\x7d]," ++
      "\"name\":\"a\"\x7d]\x7d"
    L.Document s ∧ Library.parse? s = some L := by
  intro L s
  have hb : Json.Blanks [] := List.forall_mem_nil _
  have hspace : Json.Blanks [' '] := List.forall_mem_singleton.mpr (.inl rfl)
  have hdocument : L.Document s := by
    refine ⟨.record [("templates", .array [.record [("tag", .null), ("elements", .array [.record
      [("elements", .array [.string (some "\n"), .record [("always", .bool true),
        ("kind", .string (some "prompt")), ("prompt", .string (some "?"))]]),
        ("kind", .string (some "list"))]]), ("name", .string (some "a"))]])], ?_, ?_⟩
    · have hprompt : ElementSpec.Written (.prompt { text := "?", always := true })
          (.record [("always", .bool true), ("kind", .string (some "prompt")),
            ("prompt", .string (some "?"))]) :=
        .directive (.prompt .absent (.given _)) (@List.perm_append_comm _ [_] [_, _])
      have hlist := ElementSpec.Directive.list (.cons (.text "\n") (.cons hprompt .nil))
      exact .record .nil (.cons (.record (.given .null) .absent
        (.cons (.directive hlist (.swap _ _ _)) .nil) (@List.perm_append_comm _ [_, _] [_])) .nil)
        .absent (.given _) (.refl _)
    · have hprompt := Json.Text.object hb (.cons (.of_plain "always" (by decide)) hb hb
        .true hb hb (.cons (.of_plain "kind" (by decide)) hb hb
          (.string (.of_plain "prompt" (by decide))) hb hb
          (.single (.of_plain "prompt" (by decide)) hb hb
            (.string (.of_plain "?" (by decide))) hb)))
      have hlineFeed : Json.StringText "\n".toList ['\\', 'n'] := .cons (.short (by decide)) .nil
      have hlist := Json.Text.object hb (.cons (.of_plain "elements" (by decide)) hb hb
        (.array hb (.cons (.string hlineFeed) hb hb (.single hprompt hb))) hb hb
        (.single (.of_plain "kind" (by decide)) hb hb
          (.string (.of_plain "list" (by decide))) hb))
      have htemplate := Json.Text.object hb (.cons (.of_plain "tag" (by decide)) hb hb .null
        hb hb (.cons (.of_plain "elements" (by decide)) hb hb
          (.array hb (.single hlist hb)) hb hb
          (.single (.of_plain "name" (by decide)) hb hb
            (.string (.of_plain "a" (by decide))) hb)))
      exact ⟨[], _, [], hb, .object hb (.single (.of_plain "templates" (by decide)) hb hspace
        (.array hb (.single htemplate hb)) hb), hb, by decide +kernel⟩
  exact ⟨hdocument, (parse?_eq_some_iff hdocument).mpr (by decide +kernel)⟩

/-- JSON lets a line separator stand in a string, and the reader does not. -/
theorem parse?_raw_separator :
    let L : Library := { templates := [{ name := "a", elements := [.text "\u2028"] }] }
    let s := "\x7b\"scopes\":[],\"templates\":[" ++
      "\x7b\"name\":\"a\",\"elements\":[\"\u2028\"]\x7d]\x7d"
    L.Document s ∧ Library.parse? s = none := by
  intro L s
  have hb : Json.Blanks [] := List.forall_mem_nil _
  have hdocument : L.Document s := by
    refine ⟨.record [("scopes", .array []), ("templates", .array [.record
      [("name", .string (some "a")), ("elements", .array [.string (some "\u2028")])]])], ?_, ?_⟩
    · have htext := ElementSpec.AllWritten.cons (.text "\u2028") .nil
      exact .record .nil (.cons (.record .absent .absent htext (.refl _)) .nil) (.given _)
        (.given _) (.refl _)
    · have htemplate := Json.Text.object hb (.cons (.of_plain "name" (by decide)) hb hb
        (.string (.of_plain "a" (by decide))) hb hb
        (.single (.of_plain "elements" (by decide)) hb hb
          (.array hb (.single (.string (.of_plain "\u2028" (by decide))) hb)) hb))
      exact ⟨[], _, [], hb, .object hb (.cons (.of_plain "scopes" (by decide)) hb hb
        (.emptyArray hb) hb hb (.single (.of_plain "templates" (by decide)) hb hb
          (.array hb (.single htemplate hb)) hb)), hb, by decide⟩
  rw [hdocument.parse?_eq]
  exact ⟨hdocument, by decide⟩

end Library

/-! ## There are documents

A document that writes all fields in the order in which they are declared. -/

theorem Json.Writable.ofText? (o : Option String) : Json.Writable (.ofText? o) := by
  cases o with
  | none => exact .null
  | some s => exact .string s

namespace ElementSpec

theorem Directive.exists_written {e : ElementSpec} {kind : String} {fs : Fields}
    (h : Directive e kind fs) (hfs : ∀ f ∈ fs, Json.Writable f.2) :
    ∃ v, Written e v ∧ Json.Writable v :=
  ⟨_, .directive h (.refl _), .object (List.forall_mem_cons.mpr ⟨.string kind, hfs⟩)⟩

mutual

theorem exists_written : ∀ e : ElementSpec, ∃ v, Written e v ∧ Json.Writable v
  | .text s => ⟨_, .text s, .string s⟩
  | .prompt p => (Directive.prompt (.given _) (.given _)).exists_written (by
      simp [Json.Writable.string, Json.Writable.ofText?, Json.Writable.bool])
  | .region _ _ _ _ =>
      (Directive.region (.given _) (.given _) (.given _) (.given _)).exists_written (by
        simp [Json.Writable.ofText?, Json.Writable.bool])
  | .list es => by
    obtain ⟨vs, hvs, hwritable⟩ := exists_allWritten es
    exact (Directive.list hvs).exists_written
      (List.forall_mem_singleton.mpr (.array hwritable))
  | .saved s => (Directive.saved s).exists_written (List.forall_mem_singleton.mpr (.string s))
  | .symbol s => (Directive.symbol s).exists_written (List.forall_mem_singleton.mpr (.string s))
  | .includes s =>
    (Directive.includes s).exists_written (List.forall_mem_singleton.mpr (.string s))
  | .point => Directive.point.exists_written (List.forall_mem_nil _)
  | .newline => Directive.newline.exists_written (List.forall_mem_nil _)
  | .newlineIndent => Directive.newlineIndent.exists_written (List.forall_mem_nil _)
  | .conditionalNewline => Directive.conditionalNewline.exists_written (List.forall_mem_nil _)
  | .conditionalNewlineAfter =>
    Directive.conditionalNewlineAfter.exists_written (List.forall_mem_nil _)
  | .indent => Directive.indent.exists_written (List.forall_mem_nil _)
  | .empty => Directive.empty.exists_written (List.forall_mem_nil _)

theorem exists_allWritten : ∀ es : List ElementSpec,
    ∃ vs, AllWritten es vs ∧ ∀ v ∈ vs, Json.Writable v
  | [] => ⟨[], .nil, List.forall_mem_nil _⟩
  | e :: es => by
    obtain ⟨v, hv, hwritable⟩ := exists_written e
    obtain ⟨vs, hvs, hwritables⟩ := exists_allWritten es
    exact ⟨v :: vs, .cons hv hvs, List.forall_mem_cons.mpr ⟨hwritable, hwritables⟩⟩

end

end ElementSpec

theorem ScopeSpec.exists_written (s : ScopeSpec) : ∃ v, s.Written v ∧ Json.Writable v := by
  refine ⟨_, .record (.given _) (.refl _), .object ?_⟩
  simp [Json.Writable.string, Json.Writable.ofText?]

theorem TemplateSpec.exists_written (t : TemplateSpec) : ∃ v, t.Written v ∧ Json.Writable v := by
  obtain ⟨vs, hvs, hwritable⟩ := ElementSpec.exists_allWritten t.elements
  refine ⟨_, .record (.given _) (.given _) hvs (.refl _), .object ?_⟩
  simp [Json.Writable.string, Json.Writable.ofText?, Json.Writable.array hwritable]

theorem exists_forall₂_written {α : Type} {R : α → Value → Prop}
    (hR : ∀ a, ∃ v, R a v ∧ Json.Writable v) (as : List α) :
    ∃ vs, as.Forall₂ R vs ∧ ∀ v ∈ vs, Json.Writable v := by
  induction as with
  | nil => exact ⟨[], .nil, List.forall_mem_nil _⟩
  | cons a as ih =>
    obtain ⟨v, hv, hwritable⟩ := hR a
    obtain ⟨vs, hvs, hwritables⟩ := ih
    exact ⟨v :: vs, .cons hv hvs, List.forall_mem_cons.mpr ⟨hwritable, hwritables⟩⟩

/-- Every library has a document, and is read from it. -/
theorem Library.exists_document (L : Library) :
    ∃ s, L.Document s ∧ Library.parse? s = some L := by
  obtain ⟨vs, hvs, hscopes⟩ := exists_forall₂_written ScopeSpec.exists_written L.scopes
  obtain ⟨ws, hws, htemplates⟩ := exists_forall₂_written TemplateSpec.exists_written L.templates
  have hwritable : Json.Writable (.record [("scopes", .array vs), ("templates", .array ws)]) :=
    .object (by simp [Json.Writable.array hscopes, Json.Writable.array htemplates])
  obtain ⟨s, hs, hany⟩ := hwritable.exists_document
  have hdocument : L.Document s := ⟨_, .record hvs hws (.given _) (.given _) (.refl _), hs⟩
  refine ⟨s, hdocument, ?_⟩
  rw [hdocument.parse?_eq, Json.unlessSeparated_eq_some_iff]
  exact hany

end TextTemplate
