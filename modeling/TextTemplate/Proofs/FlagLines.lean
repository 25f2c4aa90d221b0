import TextTemplate.Proofs.KeptFlags
import TextTemplate.Proofs.OptionValues

/-!
# Lines of flags by themselves

Each line of a file of flags that says something is split into tokens by itself, but the tokens of all
lines are read as one list.  So an option that has no value on its line takes the first token of the
next line that says something.  Where no line does that, the lines of a file can be read by themselves
and their flags merged (`CommandLine.loadFlags_append`).
-/

namespace TextTemplate

namespace Config

/-! ## Lines -/

/-- The lines of a file that say something, without the blanks around them. -/
def statements (content : String) : List (List Char) :=
  (content.toList.splitOn '\n').map Text.trim
    |>.filter fun line => line ≠ [] ∧ line.head? ≠ some '#'

/-- The setting that waits for its value at the end of a line. -/
def lineWaiting? (line : List Char) : Option Setting := waiting? (lineTokens line)

/-- The options that a line gives, each with its value. -/
def lineOptions (line : List Char) : List (String × String) := optionsOf (lineTokens line)

/-- Whether all values on a line are understood. -/
def isSound (line : List Char) : Bool :=
  (lineOptions line).all fun o =>
    match flagOf? o.1 with
    | some (.inr s) => s.accepts o.2
    | _ => true

theorem accepts_of_isSound {line : List Char} (h : isSound line) {s : Setting} {v : String}
    (hv : (s.name, v) ∈ lineOptions line) : s.accepts v = true := by
  have hoption := List.all_eq_true.mp h _ hv
  rwa [flagOf?_setting] at hoption

theorem fileTokens_eq_flatMap (content : String) :
    fileTokens content = (statements content).flatMap lineTokens := rfl

/-- Lines that are complete are lines of a longer file. -/
theorem statements_append {c₁ : String} (h : c₁ = "" ∨ ∃ l, c₁ = l ++ "\n") (c₂ : String) :
    statements (c₁ ++ c₂) = statements c₁ ++ statements c₂ := by
  rcases h with rfl | ⟨l, rfl⟩
  · rw [String.empty_append]
    rfl
  · have hsplit (c : String) : (l ++ "\n" ++ c).toList.splitOn '\n' =
        l.toList.splitOn '\n' ++ c.toList.splitOn '\n' := by
      have htext : (l ++ "\n" ++ c).toList = l.toList ++ '\n' :: c.toList := by simp
      rw [htext, List.splitOn_append_cons_self]
    have hline : statements (l ++ "\n") = statements l := by
      have h := hsplit ""
      rw [String.append_empty] at h
      simp only [statements, h, List.map_append, List.filter_append]
      simp
    rw [hline]
    simp only [statements, hsplit, List.map_append, List.filter_append]

theorem fileTokens_append {c₁ : String} (h : c₁ = "" ∨ ∃ l, c₁ = l ++ "\n") (c₂ : String) :
    fileTokens (c₁ ++ c₂) = fileTokens c₁ ++ fileTokens c₂ := by
  simp only [fileTokens_eq_flatMap, statements_append h, List.flatMap_append]

variable {ls : List (List Char)}

/-- Where no line waits for a value, none is waited for in the end. -/
theorem waiting?_flatMap (h : ∀ l ∈ ls, lineWaiting? l = none) :
    waiting? (ls.flatMap lineTokens) = none := by
  induction ls with
  | nil => rfl
  | cons l ls ih =>
    obtain ⟨hl, hls⟩ := List.forall_mem_cons.mp h
    rw [List.flatMap_cons, waiting?_append hl, ih hls]

/-- Where no line but the last one waits for a value, the options are those of the lines. -/
theorem optionsOf_flatMap (h : ∀ l ∈ ls.dropLast, lineWaiting? l = none) :
    optionsOf (ls.flatMap lineTokens) = ls.flatMap lineOptions := by
  induction ls with
  | nil => rfl
  | cons l ls ih =>
    rw [List.flatMap_cons, List.flatMap_cons, optionsOf_append]
    cases ls with
    | nil => rw [List.flatMap_nil, optionsAfter_nil, List.flatMap_nil, lineOptions]
    | cons m ls =>
      rw [List.dropLast_cons_cons] at h
      obtain ⟨hl, hls⟩ := List.forall_mem_cons.mp h
      rw [show waiting? (lineTokens l) = none from hl, optionsAfter, ih hls, lineOptions]

namespace Flags

theorem union_empty (f : Flags) : f.union {} = f := by
  ext1 <;> simp [union]

/-- Two parts of a file of which the first one leaves no option waiting are merged just if the second
one takes no value of the first one away. -/
theorem ofFile_append_iff {c₁ c₂ : String} (hlines : c₁ = "" ∨ ∃ l, c₁ = l ++ "\n")
    (hwaiting : waiting? (fileTokens c₁) = none) :
    ofFile (c₁ ++ c₂) = (ofFile c₁).union (ofFile c₂) ↔
      ∀ (s : Setting) (v : String), lastValue? s.name (optionsOf (fileTokens c₂)) = some v →
        s.accepts v = true ∨ (ofFile c₁).has s = false := by
  have hsecond : ofFile c₂ = ({} : Flags).giveAll (optionsOf (fileTokens c₂)) := by
    rw [ofFile, ofTokens, readTokens_eq_giveAll]
  rw [← giveAll_eq_union_iff, ← hsecond, ofFile, fileTokens_append hlines,
    ofTokens_append hwaiting, ← ofFile]

/-- Where no line waits for a value and has another one after it, the lines can be read by
themselves. -/
theorem ofFile_append_of_lines {c₁ c₂ : String} (hlines : c₁ = "" ∨ ∃ l, c₁ = l ++ "\n")
    (hsound : ∀ l ∈ statements c₂, isSound l)
    (hown : ∀ l ∈ (statements (c₁ ++ c₂)).dropLast, lineWaiting? l = none) :
    ofFile (c₁ ++ c₂) = (ofFile c₁).union (ofFile c₂) := by
  rw [statements_append hlines] at hown
  by_cases hnone : statements c₂ = []
  · -- without a second part, the first one may wait for a value in the end
    have hfirst : ofFile (c₁ ++ c₂) = ofFile c₁ := by
      rw [ofFile, ofFile, fileTokens_eq_flatMap, fileTokens_eq_flatMap, statements_append hlines,
        hnone, List.append_nil]
    have hsecond : ofFile c₂ = {} := by
      rw [ofFile, fileTokens_eq_flatMap, hnone]
      rfl
    rw [hfirst, hsecond, union_empty]
  · rw [List.dropLast_append_of_ne_nil hnone] at hown
    obtain ⟨hown₁, hown₂⟩ := List.forall_mem_append.mp hown
    refine (ofFile_append_iff hlines (waiting?_flatMap hown₁)).mpr fun s v hv => .inl ?_
    have hmem := mem_of_lastValue? hv
    rw [fileTokens_eq_flatMap, optionsOf_flatMap hown₂] at hmem
    obtain ⟨l, hl, hoption⟩ := List.mem_flatMap.mp hmem
    exact accepts_of_isSound (hsound l hl) hoption

end Flags

end Config

namespace CommandLine

open Config

/-- A file in two parts, the first one of complete lines.  If no line that waits for a value has another
one after it, the options are those of each line, and the flags of the parts are merged if the values
in the second part are understood.  If the first part waits for a value in the end, the first token of
the second part is that value, whatever it is; and if it does not, the flags are merged just if no
value of the first part is taken away by one that its option in the second part does not
understand. -/
theorem loadFlags_append {files : Files} {path c₁ c₂ : String}
    (hdirectory : files.isDirectory path = false) (hlines : c₁ = "" ∨ ∃ l, c₁ = l ++ "\n") :
    let load (content : String) := loadFlags (files.write path content) path
    ∃ f₁ f₂, load c₁ = .ok f₁ ∧ load c₂ = .ok f₂ ∧
      ((∀ l ∈ (statements (c₁ ++ c₂)).dropLast, lineWaiting? l = none) →
        optionsOf (fileTokens (c₁ ++ c₂)) = (statements (c₁ ++ c₂)).flatMap lineOptions ∧
        ((∀ l ∈ statements c₂, isSound l) → load (c₁ ++ c₂) = .ok (f₁.union f₂))) ∧
      (∀ s, waiting? (fileTokens c₁) = some s → load (c₁ ++ c₂) = .ok
        (match fileTokens c₂ with
          | [] => f₁
          | t :: ts => (f₁.set s t).readTokens ts)) ∧
      (waiting? (fileTokens c₁) = none → (load (c₁ ++ c₂) = .ok (f₁.union f₂) ↔
        ∀ (s : Setting) (v : String), lastValue? s.name (optionsOf (fileTokens c₂)) = some v →
          s.accepts v = true ∨ f₁.has s = false)) := by
  intro load
  have hload (content : String) : load content = .ok (.ofFile content) :=
    loadFlags_write content hdirectory
  refine ⟨.ofFile c₁, .ofFile c₂, hload c₁, hload c₂, ?_, ?_, ?_⟩
  · intro hown
    refine ⟨?_, fun hsound => ?_⟩
    · rw [fileTokens_eq_flatMap, optionsOf_flatMap hown]
    · rw [hload, Flags.ofFile_append_of_lines hlines hsound hown]
  · intro s hwaiting
    rw [hload, Flags.ofFile, fileTokens_append hlines]
    split
    · next hnone => rw [hnone, List.append_nil, ← Flags.ofFile]
    · next t ts hsome => rw [hsome, Flags.ofTokens_append_of_waiting hwaiting, ← Flags.ofFile]
  · intro hwaiting
    rw [hload, Except.ok.injEq, Flags.ofFile_append_iff hlines hwaiting]

/-- The last line of the second part waits for a value.  Nothing comes behind it there, but with the
parts the other way round it takes the library.  A depth that is not understood takes the one before
away. -/
theorem loadFlags_append_last :
    let c₁ := "# saved\n--library=a b.json5\n--max-depth 5\n"
    let c₂ := "  --max-depth   7  \r\n\n--silent\n--signal\n"
    let c₃ := "--max-depth deep\n"
    let load (content : String) := loadFlags (Files.write {} ".temporc" content) ".temporc"
    load c₁ = .ok { maxDepth := some 5, library := some "a b.json5" } ∧
      load c₂ = .ok { silent := true, maxDepth := some 7 } ∧
      optionsOf (fileTokens (c₁ ++ c₂)) = [("library", "a b.json5"), ("max-depth", "5"),
        ("max-depth", "7"), ("silent", "")] ∧
      load (c₁ ++ c₂) =
        .ok { silent := true, maxDepth := some 7, library := some "a b.json5" } ∧
      load (c₂ ++ c₁) = .ok { silent := true, maxDepth := some 5 } ∧
      load c₃ = .ok {} ∧
      load (c₁ ++ c₃) ≠ .ok { maxDepth := some 5, library := some "a b.json5" } := by
  intro c₁ c₂ c₃ load
  have hlines₁ : c₁ = "" ∨ ∃ l, c₁ = l ++ "\n" :=
    .inr ⟨"# saved\n--library=a b.json5\n--max-depth 5", rfl⟩
  have hlines₂ : c₂ = "" ∨ ∃ l, c₂ = l ++ "\n" :=
    .inr ⟨"  --max-depth   7  \r\n\n--silent\n--signal", rfl⟩
  have hsound : ∀ l ∈ statements c₂, isSound l := by decide
  have hown : ∀ l ∈ (statements (c₁ ++ c₂)).dropLast, lineWaiting? l = none := by decide
  have hcomplete : waiting? (fileTokens c₁) = none := by decide
  have hwaiting : waiting? (fileTokens c₂) = some .signal := by decide
  have hdeep : lastValue? Setting.maxDepth.name (optionsOf (fileTokens c₃)) = some "deep" := by
    decide
  have hdirectory : Files.isDirectory {} ".temporc" = false := rfl
  have hfirst : load c₁ = .ok { maxDepth := some 5, library := some "a b.json5" } := by decide
  have hsecond : load c₂ = .ok { silent := true, maxDepth := some 7 } := by decide
  have hthird : load c₃ = .ok {} := by decide
  obtain ⟨f₁, f₂, h₁, h₂, hlast, -⟩ := @loadFlags_append {} ".temporc" c₁ c₂ hdirectory hlines₁
  obtain ⟨f₂', -, h₂', -, -, htaken, -⟩ := @loadFlags_append {} ".temporc" c₂ c₁ hdirectory hlines₂
  obtain ⟨f₁', f₃, h₁', h₃, -, -, hlost⟩ := @loadFlags_append {} ".temporc" c₁ c₃ hdirectory hlines₁
  cases Except.ok.inj (h₁.symm.trans hfirst)
  cases Except.ok.inj (h₂.symm.trans hsecond)
  cases Except.ok.inj (h₂'.symm.trans hsecond)
  cases Except.ok.inj (h₁'.symm.trans hfirst)
  cases Except.ok.inj (h₃.symm.trans hthird)
  obtain ⟨hoptions, hmerged⟩ := hlast hown
  refine ⟨hfirst, hsecond, hoptions.trans (by decide), hmerged hsound,
    (htaken .signal hwaiting).trans (by decide), hthird, fun h => ?_⟩
  exact ((hlost hcomplete).mp h .maxDepth "deep" hdeep).elim (by decide) (by decide)

/-- A depth that is missing on its line takes the next line. -/
theorem loadFlags_append_taken :
    let c₁ := "--max-depth\n"
    let c₂ := "--silent\n"
    let load (content : String) := loadFlags (Files.write {} ".temporc" content) ".temporc"
    (∀ l ∈ statements c₁ ++ statements c₂, isSound l) ∧
      load c₁ = .ok {} ∧ load c₂ = .ok { silent := true } ∧
      load (c₁ ++ c₂) = .ok {} ∧
      load (c₁ ++ c₂) ≠ .ok (Flags.union {} { silent := true }) := by
  decide

end CommandLine

end TextTemplate
