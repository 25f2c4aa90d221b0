import TextTemplate.Config.File
import Mathlib.Data.List.Basic
import Mathlib.Data.List.TakeWhile

/-!
# Tokens in files of flags

A file of flags is read line by line, and no line has a part in another one: the tokens of a file
are those of its lines, one line after the other (`fileTokens_line`).  The line of an option gives
the option and what is left of its value once the blanks around it are gone, if anything is
(`IsOption.fileTokens_value`).  No token has a line feed, and so no library that is read from a file
has one (`library_ofFile`).
-/

namespace TextTemplate

/-! ## Trimming -/

namespace Text

variable {s b : List Char}

theorem head?_trimStart : ∀ c ∈ (trimStart s).head?, isBlank c = false := by
  intro c hc
  have h := List.head?_dropWhile_not isBlank s
  rw [← trimStart, Option.mem_def.mp hc] at h
  exact h

theorem trimStart_eq_nil_iff : trimStart s = [] ↔ ∀ c ∈ s, isBlank c := List.dropWhile_eq_nil_iff

theorem trimEnd_eq_nil_iff : trimEnd s = [] ↔ ∀ c ∈ s, isBlank c := by
  rw [trimEnd, List.reverse_eq_nil_iff, List.dropWhile_eq_nil_iff]
  simp only [List.mem_reverse]

theorem trimEnd_isPrefixOf (s : List Char) : trimEnd s <+: s := by
  have h := List.reverse_prefix.mpr (List.dropWhile_suffix isBlank (l := s.reverse))
  rwa [List.reverse_reverse] at h

theorem trimEnd_append_of_blank (s : List Char) (hb : ∀ c ∈ b, isBlank c) :
    trimEnd (s ++ b) = trimEnd s := by
  rw [trimEnd, List.reverse_append, List.dropWhile_append_of_pos, ← trimEnd]
  intro c hc
  exact hb c (List.mem_reverse.mp hc)

theorem trim_subset (s : List Char) : trim s ⊆ s := fun _ hc =>
  List.dropWhile_subset isBlank ((trimEnd_isPrefixOf _).subset hc)

/-- A text is what is left of it without the blanks at its end, and those blanks. -/
theorem exists_trimEnd_append (s : List Char) : ∃ b, trimEnd s ++ b = s ∧ ∀ c ∈ b, isBlank c := by
  refine ⟨(s.reverse.takeWhile isBlank).reverse, ?_, ?_⟩
  · rw [trimEnd, ← List.reverse_append, List.takeWhile_append_dropWhile, List.reverse_reverse]
  · intro c hc
    exact List.mem_takeWhile_imp (List.mem_reverse.mp hc)

/-- Nothing is left of blanks only. -/
theorem trim_eq_nil_iff : trim s = [] ↔ ∀ c ∈ s, isBlank c := by
  rw [trim, trimEnd_eq_nil_iff]
  constructor
  · intro h
    rw [← trimStart_eq_nil_iff]
    cases hs : trimStart s with
    | nil => rfl
    | cons c r =>
      have hc := head?_trimStart (s := s) c (by rw [hs]; rfl)
      rw [h c (by rw [hs]; exact List.mem_cons_self)] at hc
      cases hc
  · intro h
    rw [trimStart_eq_nil_iff.mpr h]
    exact List.forall_mem_nil _

/-- Blanks at the end have no part in what is left. -/
theorem trim_append_of_blank (s : List Char) (hb : ∀ c ∈ b, isBlank c) :
    trim (s ++ b) = trim s := by
  by_cases hs : ∀ c ∈ s, isBlank c
  · rw [trim_eq_nil_iff.mpr hs, trim_eq_nil_iff]
    intro c hc
    exact (List.mem_append.mp hc).elim (hs c) (hb c)
  · have hne : trimStart s ≠ [] := fun h => hs (trimStart_eq_nil_iff.mp h)
    rw [trim, trimStart, List.dropWhile_append, ← trimStart, if_neg (by simpa using hne),
      trimEnd_append_of_blank _ hb, ← trim]

theorem trim_trimEnd (s : List Char) : trim (trimEnd s) = trim s := by
  obtain ⟨b, hs, hb⟩ := exists_trimEnd_append s
  rw [← trim_append_of_blank (trimEnd s) hb, hs]

theorem trimStart_eq_self_iff : trimStart s = s ↔ ∀ c ∈ s.head?, isBlank c = false := by
  constructor
  · intro h
    rw [← h]
    exact head?_trimStart
  · intro h
    cases s with
    | nil => rfl
    | cons c r => rw [trimStart, List.dropWhile_cons, h c rfl, if_neg Bool.false_ne_true]

theorem trimEnd_eq_self_iff : trimEnd s = s ↔ ∀ c ∈ s.getLast?, isBlank c = false := by
  rw [← List.head?_reverse, ← trimStart_eq_self_iff, ← List.reverse_inj, trimEnd,
    List.reverse_reverse, trimStart]

theorem getLast?_trimEnd : ∀ c ∈ (trimEnd s).getLast?, isBlank c = false := by
  obtain ⟨b, hs, hb⟩ := exists_trimEnd_append s
  rw [← trimEnd_eq_self_iff, ← trimEnd_append_of_blank _ hb, hs]

/-- Trimming changes just the texts that start or end with a blank. -/
theorem trim_eq_self_iff : trim s = s ↔
    (∀ c ∈ s.head?, isBlank c = false) ∧ ∀ c ∈ s.getLast?, isBlank c = false := by
  rw [← trimStart_eq_self_iff, ← trimEnd_eq_self_iff]
  constructor
  · intro h
    have hstart : trimStart s = s := by
      apply (List.dropWhile_suffix isBlank).eq_of_length_le
      calc s.length
        _ = (trim s).length := by rw [h]
        _ ≤ (trimStart s).length := (trimEnd_isPrefixOf _).length_le
    exact ⟨hstart, by rwa [trim, hstart] at h⟩
  · rintro ⟨hstart, hend⟩
    rw [trim, hstart, hend]

end Text

namespace Config

open Text (isBlank trim)

/-! ## Tokens of a file -/

/-- No line has a part in another one. -/
theorem fileTokens_line (a b : String) :
    fileTokens (a ++ "\n" ++ b) = fileTokens a ++ fileTokens b := by
  have htext : (a ++ "\n" ++ b).toList = a.toList ++ '\n' :: b.toList := by simp
  simp only [fileTokens, htext, List.splitOn_append_cons_self, List.map_append, List.filter_append,
    List.flatMap_append]

theorem fileTokens_lines {ls : List String} (hls : ls ≠ []) :
    fileTokens ("\n".intercalate ls ++ "\n") = ls.flatMap fileTokens := by
  have hlast (a : String) : fileTokens (a ++ "\n") = fileTokens a := by
    have h := fileTokens_line a ""
    rwa [String.append_empty, show fileTokens "" = [] from rfl, List.append_nil] at h
  induction ls with
  | nil => exact absurd rfl hls
  | cons l ls ih =>
    rw [List.flatMap_cons]
    cases ls with
    | nil => rw [String.intercalate_singleton, hlast, List.flatMap_nil, List.append_nil]
    | cons l' ls =>
      rw [String.intercalate_cons_cons, String.append_assoc, fileTokens_line,
        ih (List.cons_ne_nil l' ls)]

theorem fileTokens_of_one_line {s : String} (hbreak : '\n' ∉ s.toList) (hne : trim s.toList ≠ [])
    (hcomment : (trim s.toList).head? ≠ some '#') :
    fileTokens s = lineTokens (trim s.toList) := by
  simp only [fileTokens, List.splitOn_eq_singleton hbreak, List.map_cons, List.map_nil]
  rw [List.filter_cons_of_pos (by simpa using ⟨hne, hcomment⟩)]
  simp

/-- What the options of a file are called: a name is not empty, has no blank and no `=`, and starts
no comment. -/
structure IsOption (name : String) : Prop where
  ne : name.toList ≠ []
  solid : name.toList.any isBlank = false
  assigns : '=' ∉ name.toList
  comment : name.toList.head? ≠ some '#'

namespace IsOption

variable {name : String} (h : IsOption name)

include h

theorem not_isBlank {c : Char} (hc : c ∈ name.toList) : isBlank c = false :=
  Bool.eq_false_iff.mpr (List.any_eq_false.mp h.solid c hc)

theorem head?_append (s : List Char) : (name.toList ++ s).head? = name.toList.head? := by
  cases hname : name.toList with
  | nil => exact absurd hname h.ne
  | cons c r => rfl

theorem no_break {s : List Char} (hs : '\n' ∉ s) : '\n' ∉ name.toList ++ s := by
  intro hmem
  rcases List.mem_append.mp hmem with hmem | hmem
  · exact absurd (h.not_isBlank hmem) (by decide)
  · exact hs hmem

theorem trim_append {s : List Char} (hs : ∀ c ∈ (name.toList ++ s).getLast?, isBlank c = false) :
    trim (name.toList ++ s) = name.toList ++ s := by
  refine Text.trim_eq_self_iff.mpr ⟨?_, hs⟩
  intro c hc
  rw [h.head?_append] at hc
  exact h.not_isBlank (List.mem_of_mem_head? hc)

theorem trim_name : trim name.toList = name.toList := by
  have hlast : ∀ c ∈ (name.toList ++ []).getLast?, isBlank c = false := by
    rw [List.append_nil]
    intro c hc
    exact h.not_isBlank (List.mem_of_getLast? hc)
  simpa only [List.append_nil] using h.trim_append hlast

/-- The name comes first and has no blank, so a line is split behind it. -/
theorem lineTokens_append {c : Char} (hc : isBlank c) (s : List Char) :
    lineTokens (name.toList ++ c :: s) = [name, String.ofList (trim s)] := by
  have hsolid : ∀ d ∈ name.toList, (!isBlank d) = true := fun d hd => by rw [h.not_isBlank hd]; rfl
  simp only [lineTokens, List.takeWhile_append_of_pos hsolid, List.dropWhile_append_of_pos hsolid,
    List.takeWhile_cons, List.dropWhile_cons, hc, Bool.not_true, Bool.false_eq_true, if_false,
    List.append_nil, h.assigns, String.ofList_toList]

theorem lineTokens_name : lineTokens name.toList = [name] := by
  have hsolid : ∀ d ∈ name.toList, (!isBlank d) = true := fun d hd => by rw [h.not_isBlank hd]; rfl
  rw [lineTokens, List.dropWhile_eq_nil_iff.mpr hsolid, String.ofList_toList]

/-- The tokens of an option and what stands behind it on its line. -/
theorem fileTokens_value {value : String} (hbreak : '\n' ∉ value.toList) :
    fileTokens (name ++ " " ++ value) =
      name :: if trim value.toList = [] then [] else [String.ofList (trim value.toList)] := by
  have htext : (name ++ " " ++ value).toList = name.toList ++ ' ' :: value.toList := by simp
  have hbreak' : '\n' ∉ ' ' :: value.toList := by simpa using hbreak
  by_cases hblank : ∀ c ∈ value.toList, isBlank c
  · have htrim : trim (name ++ " " ++ value).toList = name.toList := by
      rw [htext, Text.trim_append_of_blank, h.trim_name]
      exact List.forall_mem_cons.mpr ⟨rfl, hblank⟩
    rw [fileTokens_of_one_line, htrim, h.lineTokens_name, if_pos (Text.trim_eq_nil_iff.mpr hblank)]
    · exact htext ▸ h.no_break hbreak'
    · exact htrim ▸ h.ne
    · exact htrim ▸ h.comment
  · obtain ⟨b, hvalue, hb⟩ := Text.exists_trimEnd_append value.toList
    have hne : Text.trimEnd value.toList ≠ [] := fun hnil => hblank (Text.trimEnd_eq_nil_iff.mp hnil)
    have htrim : trim (name ++ " " ++ value).toList =
        name.toList ++ ' ' :: Text.trimEnd value.toList := by
      have hline : name.toList ++ ' ' :: value.toList =
          name.toList ++ ' ' :: Text.trimEnd value.toList ++ b := by
        rw [List.append_assoc, List.cons_append, hvalue]
      rw [htext, hline, Text.trim_append_of_blank _ hb]
      apply h.trim_append
      rw [List.getLast?_append_of_ne_nil _ (List.cons_ne_nil _ _), List.getLast?_cons_of_ne_nil hne]
      exact Text.getLast?_trimEnd
    rw [fileTokens_of_one_line, htrim, h.lineTokens_append rfl, Text.trim_trimEnd,
      if_neg fun hnil => hblank (Text.trim_eq_nil_iff.mp hnil)]
    · exact htext ▸ h.no_break hbreak'
    · rw [htrim]
      simp
    · rw [htrim, h.head?_append]
      exact h.comment

end IsOption

/-! ## What tokens say -/

/-- A value that is written in the token of its option is what the token ends with. -/
theorem Token.isSuffixOf_of_assign {t v : String} {s : Setting}
    (h : Token.ofString t = .assign s v) : v.toList <:+ t.toList := by
  have hafter {lead : String} {w : String} (hw : Text.afterString? lead t = some w) :
      w.toList <:+ t.toList := by
    obtain ⟨r, hr, rfl⟩ := Option.map_eq_some_iff.mp hw
    rw [Text.after?_eq_some_iff.mp hr, String.toList_ofList]
    exact List.suffix_append _ _
  unfold Token.ofString at h
  split_ifs at h
  split at h
  · next hw =>
    cases h
    exact hafter hw
  · split at h
    · next hw =>
      cases h
      exact hafter hw
    · split at h
      · next hw =>
        cases h
        exact hafter hw
      · cases h

namespace Flags

theorem readTokens_switch {t : String} {s : Switch} (h : Token.ofString t = .switch s)
    (f : Flags) (ts : List String) : f.readTokens (t :: ts) = (f.turnOn s).readTokens ts := by
  rw [readTokens.eq_def]
  simp only [h]

theorem readTokens_awaits {t : String} {s : Setting} (h : Token.ofString t = .awaits s)
    (f : Flags) (v : String) (ts : List String) :
    f.readTokens (t :: v :: ts) = (f.set s v).readTokens ts := by
  rw [readTokens.eq_def]
  simp only [h]

theorem library_turnOn (f : Flags) (s : Switch) : (f.turnOn s).library = f.library := by
  cases s <;> rfl

theorem library_set (f : Flags) (s : Setting) (v : String) :
    (f.set s v).library = if s = .library then some v else f.library := by
  cases s <;> rfl

/-- A library that is read stands in some token, perhaps behind the name of the option. -/
theorem library_readTokens {f : Flags} {ts : List String} {p : String}
    (h : (f.readTokens ts).library = some p) :
    f.library = some p ∨ ∃ t ∈ ts, p.toList <:+ t.toList := by
  fun_induction readTokens f ts with
  | case1 f => exact .inl h
  | case2 f t s ts hs ih =>
    rcases ih h with hf | ⟨u, hu, hp⟩
    · exact .inl (f.library_turnOn s ▸ hf)
    · exact .inr ⟨u, List.mem_cons_of_mem t hu, hp⟩
  | case3 f t s v ts hs ih =>
    rcases ih h with hf | ⟨u, hu, hp⟩
    · rw [library_set] at hf
      split at hf
      · cases hf
        exact .inr ⟨t, List.mem_cons_self, Token.isSuffixOf_of_assign hs⟩
      · exact .inl hf
    · exact .inr ⟨u, List.mem_cons_of_mem t hu, hp⟩
  | case4 f t s v ts hs ih =>
    rcases ih h with hf | ⟨u, hu, hp⟩
    · rw [library_set] at hf
      split at hf
      · cases hf
        exact .inr ⟨p, List.mem_cons_of_mem t List.mem_cons_self, List.suffix_rfl⟩
      · exact .inl hf
    · exact .inr ⟨u, List.mem_cons_of_mem t (List.mem_cons_of_mem v hu), hp⟩
  | case5 f t s hs => exact .inl h
  | case6 f t ts hs ih =>
    rcases ih h with hf | ⟨u, hu, hp⟩
    · exact .inl hf
    · exact .inr ⟨u, List.mem_cons_of_mem t hu, hp⟩

end Flags

/-! ## Line feeds -/

theorem not_mem_of_mem_splitOn {c : Char} {s l : List Char} (h : l ∈ s.splitOn c) : c ∉ l := by
  induction s generalizing l with
  | nil =>
    rw [List.splitOn_nil, List.mem_singleton] at h
    rw [h]
    exact List.not_mem_nil
  | cons d s ih =>
    rw [List.splitOn_cons_eq_if_modifyHead] at h
    obtain ⟨m, ms, hs⟩ := List.exists_cons_of_ne_nil (List.splitOn_ne_nil c s)
    split at h
    · rcases List.mem_cons.mp h with rfl | hl
      · exact List.not_mem_nil
      · exact ih hl
    · next hd =>
      rw [hs, List.modifyHead_cons] at h
      rcases List.mem_cons.mp h with rfl | hl
      · intro hc
        rcases List.mem_cons.mp hc with rfl | hc
        · exact hd (beq_self_eq_true _)
        · exact ih (hs ▸ List.mem_cons_self) hc
      · exact ih (hs ▸ List.mem_cons_of_mem m hl)

theorem subset_of_mem_lineTokens {line : List Char} {t : String} (h : t ∈ lineTokens line) :
    t.toList ⊆ line := by
  have hwhole {u : String} (hu : u ∈ [String.ofList line]) : u.toList ⊆ line := by
    rw [List.mem_singleton.mp hu, String.toList_ofList]
    exact List.Subset.refl line
  unfold lineTokens at h
  dsimp only at h
  split at h
  · exact hwhole h
  · next c value hvalue =>
    split at h
    · exact hwhole h
    · rcases List.mem_pair.mp h with rfl | rfl <;> rw [String.toList_ofList]
      · exact (List.takeWhile_prefix _).subset
      · refine List.Subset.trans (Text.trim_subset value) ?_
        refine List.Subset.trans (List.subset_cons_self c value) ?_
        rw [← hvalue]
        exact List.dropWhile_subset _

/-- No token of a file has a line feed in it. -/
theorem no_break_of_mem_fileTokens {content t : String} (h : t ∈ fileTokens content) :
    '\n' ∉ t.toList := by
  simp only [fileTokens, List.mem_flatMap, List.mem_filter, List.mem_map] at h
  obtain ⟨line, ⟨⟨l, hl, rfl⟩, -⟩, ht⟩ := h
  intro hmem
  exact not_mem_of_mem_splitOn hl (Text.trim_subset l (subset_of_mem_lineTokens ht hmem))

namespace Flags

/-- A library that is read from a file has no line feed in it. -/
theorem library_ofFile {content p : String} (h : (ofFile content).library = some p) :
    '\n' ∉ p.toList := by
  rcases library_readTokens h with h | ⟨t, ht, hp⟩
  · cases h
  · exact fun hmem => no_break_of_mem_fileTokens ht (hp.subset hmem)

end Flags

end Config

end TextTemplate
