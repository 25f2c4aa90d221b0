import Mathlib.Algebra.Group.Nat.Defs
import TextTemplate.CommandLine.Run
import TextTemplate.Proofs.FlagsFile

/-!
# Flags kept in a file

What is read from a file of kept flags is what its lines say, and only the line of the library can
say something else than what was written.  It says what is left of the path once the blanks around
it are gone, or nothing if that is empty (`ofFile_toFile`).  A path with a line feed takes more
lines than one, and is not read back whatever these lines say.  So `loadFlags_saveFlags_iff` tells
exactly which flags are loaded as they were saved.
-/

namespace TextTemplate

namespace Text

/-! ## Numbers -/

theorem isBlank_of_isDigit {c : Char} (h : c.isDigit) : isBlank c = false := by
  simp only [Char.isDigit, Bool.and_eq_true, decide_eq_true_eq, UInt32.le_iff_toNat_le] at h
  have hbounds : 48 ≤ c.toNat ∧ c.toNat ≤ 57 := h
  simp only [isBlank, Bool.or_eq_false_iff, Bool.and_eq_false_iff, decide_eq_false_iff_not,
    beq_eq_false_iff_ne]
  omega

theorem digit?_of_isDigit {c : Char} (h : c.isDigit) : digit? c = some (c.toNat - 48) := by
  simp only [Char.isDigit, Bool.and_eq_true, decide_eq_true_eq] at h
  exact if_pos h

theorem digitsFrom?_of_isDigit {s : List Char} (h : ∀ c ∈ s, c.isDigit) (n : Nat) :
    digitsFrom? n s = some (Nat.ofDigitChars 10 s n) := by
  induction s generalizing n with
  | nil => rw [digitsFrom?, Nat.ofDigitChars_nil]
  | cons c s ih =>
    rw [digitsFrom?, digit?_of_isDigit (h c List.mem_cons_self), Option.bind_some,
      ih fun d hd => h d (List.mem_cons_of_mem c hd), Nat.ofDigitChars_cons]
    rfl

/-- A number of one word is read as it is written. -/
theorem word?_toDigits {n : Nat} (hn : n ≤ wordMax) : word? (Nat.toDigits 10 n) = some n := by
  have hdigits : ∀ c ∈ Nat.toDigits 10 n, c.isDigit :=
    fun c hc => Nat.isDigit_of_mem_toDigits (by decide) (by decide) hc
  have hread := digitsFrom?_of_isDigit hdigits 0
  rw [Nat.ofDigitChars_ten_toDigits] at hread
  cases hs : Nat.toDigits 10 n with
  | nil => exact absurd hs Nat.toDigits_ne_nil
  | cons c s =>
    rw [hs] at hdigits hread
    have hplus : c ≠ '+' := by
      rintro rfl
      exact absurd (hdigits '+' List.mem_cons_self) (by decide)
    have hdigits? : digits? (c :: s) = some n := hread
    unfold word?
    split
    · next hsplit => exact absurd (List.cons.inj hsplit).1 hplus
    · dsimp only
      rw [hdigits?, Option.filter_some_pos]
      simpa using hn

end Text

namespace Config

open Text (isBlank trim)

namespace Flags

/-! ## Keeping and reading -/

theorem fileTokens_maxDepth (n : Nat) :
    fileTokens ("--max-depth " ++ toString n) = ["--max-depth", toString n] := by
  have hoption : IsOption "--max-depth" := ⟨by decide, by decide, by decide, by decide⟩
  have htext : (toString n).toList = Nat.toDigits 10 n := Nat.toList_repr
  have hdigit {c : Char} (hc : c ∈ (toString n).toList) : isBlank c = false := by
    rw [htext] at hc
    exact Text.isBlank_of_isDigit (Nat.isDigit_of_mem_toDigits (by decide) (by decide) hc)
  have htrim : trim (toString n).toList = (toString n).toList :=
    Text.trim_eq_self_iff.mpr
      ⟨fun c hc => hdigit (List.mem_of_mem_head? hc), fun c hc => hdigit (List.mem_of_getLast? hc)⟩
  have hbreak : '\n' ∉ (toString n).toList := fun hmem => absurd (hdigit hmem) (by decide)
  have hne : (toString n).toList ≠ [] := htext ▸ Nat.toDigits_ne_nil
  have htokens := hoption.fileTokens_value hbreak
  rwa [htrim, if_neg hne, String.ofList_toList] at htokens

theorem fileTokens_signal (s : Signal) :
    fileTokens ("--signal " ++ s.name) = ["--signal", s.name] := by
  cases s <;> rfl

/-- What the line of a library gives back of its path. -/
def libraryOfLine (p : String) : Option String :=
  if trim p.toList = [] then none else some (.ofList (trim p.toList))

theorem fileTokens_library {p : String} (hbreak : '\n' ∉ p.toList) :
    fileTokens ("--library " ++ p) = "--library" :: (libraryOfLine p).toList := by
  have hoption : IsOption "--library" := ⟨by decide, by decide, by decide, by decide⟩
  have htokens := hoption.fileTokens_value hbreak
  rw [libraryOfLine]
  split
  · next hp => rwa [if_pos hp] at htokens
  · next hp => rwa [if_neg hp] at htokens

section

variable (g : Flags) (ts : List String)

theorem readTokens_keptSwitch {s : Switch} {name : String} (hname : Token.ofString name = .switch s)
    (hline : fileTokens name = [name]) (on : Bool) :
    g.readTokens ((if on then [name] else []).flatMap fileTokens ++ ts) =
      (if on then g.turnOn s else g).readTokens ts := by
  cases on with
  | false => rfl
  | true =>
    simp only [if_true, List.flatMap_singleton, hline, List.singleton_append]
    exact readTokens_switch hname g ts

theorem readTokens_keptDepth {depth : Option Nat} (h : ∀ n ∈ depth, n ≤ Text.wordMax) :
    g.readTokens ((depth.map fun n => "--max-depth " ++ toString n).toList.flatMap fileTokens ++ ts) =
      { g with maxDepth := depth <|> g.maxDepth }.readTokens ts := by
  cases depth with
  | none => rfl
  | some n =>
    have hword : Text.word? (toString n).toList = some n := by
      rw [show (toString n).toList = Nat.toDigits 10 n from Nat.toList_repr]
      exact Text.word?_toDigits (h n rfl)
    have hread := readTokens_awaits (t := "--max-depth") rfl g (toString n) ts
    rw [set, hword] at hread
    simp only [Option.map_some, Option.toList_some, List.flatMap_singleton, fileTokens_maxDepth,
      List.cons_append, List.nil_append]
    exact hread

theorem readTokens_keptSignal (signal : Option Signal) :
    g.readTokens ((signal.map fun s => "--signal " ++ s.name).toList.flatMap fileTokens ++ ts) =
      { g with signal := signal <|> g.signal }.readTokens ts := by
  cases signal with
  | none => rfl
  | some s =>
    have hread := readTokens_awaits (t := "--signal") rfl g s.name ts
    rw [set, Signal.ofName?_name] at hread
    simp only [Option.map_some, Option.toList_some, List.flatMap_singleton, fileTokens_signal,
      List.cons_append, List.nil_append]
    exact hread

/-- The library comes last; a line that names no path is the end of the file. -/
theorem readTokens_keptLibrary {library : Option String}
    (h : ∀ p ∈ library, '\n' ∉ p.toList) :
    g.readTokens ((library.map fun p => "--library " ++ p).toList.flatMap fileTokens) =
      { g with library := library.bind libraryOfLine <|> g.library } := by
  cases library with
  | none => rfl
  | some p =>
    simp only [Option.map_some, Option.toList_some, List.flatMap_singleton,
      fileTokens_library (h p rfl), Option.bind_some]
    cases libraryOfLine p with
    | none => rfl
    | some q => exact readTokens_awaits (t := "--library") rfl g q []

end

/-- What is read from a file of kept flags, where the path of the library has no line feed. -/
theorem ofFile_toFile {f : Flags} (hdepth : ∀ n ∈ f.maxDepth, n ≤ Text.wordMax)
    (hbreak : ∀ p ∈ f.library, '\n' ∉ p.toList) :
    ofFile f.toFile = { f with library := f.library.bind libraryOfLine } := by
  rw [ofFile, toFile, fileTokens_lines (by simp [fileLines]), ofTokens]
  simp only [fileLines, List.flatMap_append, List.append_assoc, List.flatMap_singleton]
  rw [show fileTokens "# tempo defaults (saved with --save)" = [] from rfl, List.nil_append,
    readTokens_keptSwitch _ _ (s := .interactive) rfl rfl, readTokens_keptSwitch _ _ (s := .silent) rfl rfl,
    readTokens_keptSwitch _ _ (s := .json) rfl rfl, readTokens_keptDepth _ _ hdepth, readTokens_keptSignal,
    readTokens_keptLibrary _ hbreak]
  rcases f with ⟨interactive, silent, json, depth, signal, library⟩
  cases interactive <;> cases silent <;> cases json <;> simp [turnOn]

theorem libraryOfLine_eq_self_iff {p : String} : libraryOfLine p = some p ↔ p ≠ "" ∧
    (∀ c ∈ p.toList.head?, isBlank c = false) ∧ ∀ c ∈ p.toList.getLast?, isBlank c = false := by
  rw [← Text.trim_eq_self_iff, libraryOfLine]
  constructor
  · intro h
    split at h
    · cases h
    · next hne =>
      have htrim : trim p.toList = p.toList := by
        simpa using congrArg String.toList (Option.some.inj h)
      refine ⟨?_, htrim⟩
      rintro rfl
      exact hne rfl
  · rintro ⟨hne, htrim⟩
    rw [htrim, if_neg (by simpa using hne), String.ofList_toList]

/-- Flags are read back as they were kept just if the path of the library is not empty, has no line
feed and neither starts nor ends with a blank. -/
theorem ofFile_toFile_eq_self_iff {f : Flags} (hdepth : ∀ n ∈ f.maxDepth, n ≤ Text.wordMax) :
    ofFile f.toFile = f ↔ ∀ p ∈ f.library, p ≠ "" ∧ '\n' ∉ p.toList ∧
      (∀ c ∈ p.toList.head?, isBlank c = false) ∧ ∀ c ∈ p.toList.getLast?, isBlank c = false := by
  have hsame (hbreak : ∀ p ∈ f.library, '\n' ∉ p.toList) :
      ofFile f.toFile = f ↔ f.library.bind libraryOfLine = f.library := by
    rw [ofFile_toFile hdepth hbreak]
    rcases f with ⟨interactive, silent, json, depth, signal, library⟩
    simp only [mk.injEq, true_and]
  constructor
  · intro h p hp
    have hbreak : '\n' ∉ p.toList := library_ofFile (by rw [h]; exact hp)
    have hline := (hsame fun q hq => Option.mem_unique hp hq ▸ hbreak).mp h
    rw [hp, Option.bind_some, libraryOfLine_eq_self_iff] at hline
    exact ⟨hline.1, hbreak, hline.2⟩
  · intro h
    rw [hsame fun p hp => (h p hp).2.1]
    cases hlibrary : f.library with
    | none => rfl
    | some p =>
      obtain ⟨hne, -, hends⟩ := h p hlibrary
      exact libraryOfLine_eq_self_iff.mpr ⟨hne, hends⟩

end Flags

end Config

/-! ## Files of flags -/

namespace CommandLine

open Config (Flags)

/-- A file that is written is no directory if there was none. -/
theorem Files.isDirectory_write {files : Files} {path : String} (text : String)
    (h : files.isDirectory path = false) : (files.write path text).isDirectory path = false := by
  have hself : (Path.ofString path).leadsTo (.ofString path) = false := by simp [Path.leadsTo]
  rw [isDirectory] at h
  rw [isDirectory, write, Table.keys_insert]
  split
  · exact h
  · rw [List.any_append, h, List.any_cons, hself]
    rfl

/-- What is loaded from a file is what its text says. -/
theorem loadFlags_write {files : Files} {path : String} (content : String)
    (h : files.isDirectory path = false) :
    loadFlags (files.write path content) path = .ok (.ofFile content) := by
  rw [loadFlags, Files.isDirectory_write _ h, if_neg (by decide), Files.read?_write, if_pos rfl,
    Option.map_some, Option.getD_some]

theorem loadFlags_of_saveFlags {files files' : Files} {path : String} {f : Flags}
    (h : saveFlags files path f = .ok files') : loadFlags files' path = .ok (.ofFile f.toFile) := by
  unfold saveFlags at h
  split at h
  · cases h
  · split at h
    · cases h
    · next hdirectory =>
      cases h
      exact loadFlags_write _ (by simpa using hdirectory)

/-- Flags that are saved are loaded again as they were just if there is no library, or its path is
not empty, has no line feed and neither starts nor ends with a blank. -/
theorem loadFlags_saveFlags_iff {files files' : Files} {path : String} {f : Flags}
    (hdepth : ∀ n ∈ f.maxDepth, n < 2 ^ 64) (hsave : saveFlags files path f = .ok files') :
    loadFlags files' path = .ok f ↔ ∀ p ∈ f.library, p ≠ "" ∧ '\n' ∉ p.toList ∧
      (∀ c ∈ p.toList.head?, Text.isBlank c = false) ∧
      ∀ c ∈ p.toList.getLast?, Text.isBlank c = false := by
  have hword : ∀ n ∈ f.maxDepth, n ≤ Text.wordMax := fun n hn => Nat.le_of_lt_succ (hdepth n hn)
  rw [loadFlags_of_saveFlags hsave, Except.ok.injEq, Flags.ofFile_toFile_eq_self_iff hword]

/-- A path that looks like flags and comments is kept. -/
theorem loadFlags_saveFlags_odd_path :
    let f : Flags := {
      silent := true
      maxDepth := some 18446744073709551615
      library := some "-l  a=b\t# c\r--silent" }
    let files := ({} : Files).write ".temporc" f.toFile
    (∀ n ∈ f.maxDepth, n < 2 ^ 64) ∧ saveFlags {} ".temporc" f = .ok files ∧
      loadFlags files ".temporc" = .ok f := by
  intro f files
  have hdepth : ∀ n ∈ f.maxDepth, n < 2 ^ 64 := by decide
  have hsave : saveFlags {} ".temporc" f = .ok files := rfl
  refine ⟨hdepth, hsave, (loadFlags_saveFlags_iff hdepth hsave).mpr ?_⟩
  intro p hp
  cases hp
  refine ⟨by decide, by decide, ?_, ?_⟩ <;> (intro c hc; cases hc; rfl)

end CommandLine

end TextTemplate
