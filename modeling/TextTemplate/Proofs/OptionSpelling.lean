import Mathlib.Data.List.Basic
import TextTemplate.CommandLine.Arguments
import TextTemplate.Proofs.OptionTokens

/-!
# How options are spelled

A command line is read twice: `Invocation.parse?` accepts it or not, and the flags are picked out of
its arguments by `Flags.ofTokens`, which does not know all spellings of an option.  Short options
behind one hyphen and values attached to them say nothing there, and operands behind `--` are read
like options.  `separated` takes the former apart and leaves the latter away, and then the two
readings agree (`Invocation.flags_parse`).

What one argument says is settled for the options of a specification by `Usual.readTokens_separate`,
along the three ways to give options (`Argument.ofString?_cases`).  `Usual.readTokens_scan` takes this
through the arguments, by the recursion of `scan?`.
-/

namespace TextTemplate

namespace CommandLine

open Config (Flags Token Switch Setting flagOf?)

/-! ## Arguments of their own -/

/-- The value that a short option has in its own argument, perhaps behind `=`. -/
def attached? : List Char → Option String
  | [] => none
  | '=' :: v | v => some (String.ofList v)

/-- The short options that one hyphen leads, each with a hyphen of its own and its value apart. -/
def separateShort : List Char → List String
  | [] => []
  | c :: cs =>
    match globalOptions.find? fun o => o.letter == some c with
    | none => [String.ofList ('-' :: c :: cs)]
    | some o =>
      String.ofList ['-', c] :: if o.arity.takesValue then (attached? cs).toList else separateShort cs

/-- An argument, or the short options in it. -/
def separate (a : String) : List String :=
  match a.toList with
  | '-' :: c :: cs => if c = '-' then [a] else separateShort (c :: cs)
  | _ => [a]

/-- The arguments up to `--`, with each short option in one of its own. -/
def separated (as : List String) : List String := (as.takeWhile (· != "--")).flatMap separate

theorem separated_cons {a : String} (ha : a ≠ "--") (as : List String) :
    separated (a :: as) = separate a ++ separated as := by
  rw [separated, List.takeWhile_cons_of_pos (by simpa using ha), List.flatMap_cons, separated]

/-! ## Reading what one argument says -/

/-- The name has no `=`, and the option takes a value just if the flag does that the name is for. -/
def OptionSpec.Fits (o : OptionSpec) : Prop :=
  '=' ∉ o.name.toList ∧ ∀ flag ∈ flagOf? o.name, flag.isRight = o.arity.takesValue

/-- What can be a value in an argument of its own is no flag. -/
theorem ofString_of_not_looksLikeOption {a : String} (h : looksLikeOption a = false) :
    Token.ofString a = .other := by
  have hleads : ∀ lead ∈ ["--max-depth=", "--signal=", "--library="],
      ∃ r, lead.toList = '-' :: '-' :: r := by
    simp
  refine Token.ofString_eq_other (fun hmem => ?_) fun lead hlead => ?_
  · have hnames : ∀ n ∈ ["--interactive", "-i", "--silent", "--json", "--max-depth", "--signal",
        "--library", "-l"], looksLikeOption n = true := by decide
    rw [hnames a hmem] at h
    cases h
  · obtain ⟨r, hr⟩ := hleads lead hlead
    cases hafter : Text.after? lead.toList a.toList with
    | none => rw [Text.afterString?, hafter, Option.map_none]
    | some u =>
      have ha := Text.after?_eq_some_iff.mp hafter
      rw [hr] at ha
      have hne : a ≠ "-" := by
        rintro rfl
        simp at ha
      simp [looksLikeOption, ha, hne] at h

namespace OptionSpec.Fits

variable {o : OptionSpec} (h : o.Fits) (f : Flags)

include h

/-- The name is that of no flag, or of a switch if the option takes no value, or of a setting if it
takes one. -/
theorem flag_cases :
    (flagOf? o.name = none ∨ ∃ s, flagOf? o.name = some (.inl s) ∧ o.arity.takesValue = false) ∨
      ∃ s, flagOf? o.name = some (.inr s) ∧ o.arity.takesValue = true := by
  cases hflag : flagOf? o.name with
  | none => exact .inl (.inl rfl)
  | some flag =>
    have hright := h.2 flag hflag
    cases flag with
    | inl s => exact .inl (.inr ⟨s, rfl, hright.symm⟩)
    | inr s => exact .inr ⟨s, rfl, hright.symm⟩

/-- A name that stands alone. -/
theorem readTokens_alone (htakes : o.arity.takesValue = false) (ts : List String) :
    f.readTokens (("--" ++ o.name) :: ts) = (f.give o.name "").readTokens ts := by
  have htoken := Token.ofString_name h.1
  rw [Flags.give]
  rcases h.flag_cases with (hflag | ⟨s, hflag, -⟩) | ⟨s, -, hnot⟩
  · rw [hflag] at htoken ⊢
    exact Flags.readTokens_other htoken f ts
  · rw [hflag] at htoken ⊢
    exact Flags.readTokens_switch htoken f ts
  · cases htakes.symm.trans hnot

/-- A name with its value behind `=`. -/
theorem readTokens_attached (htakes : o.arity.takesValue) (v : String) (ts : List String) :
    f.readTokens (("--" ++ o.name ++ "=" ++ v) :: ts) = (f.give o.name v).readTokens ts := by
  have htoken := Token.ofString_assign h.1 v
  rw [Flags.give]
  rcases h.flag_cases with (hflag | ⟨s, -, hnot⟩) | ⟨s, hflag, -⟩
  · rw [hflag] at htoken ⊢
    exact Flags.readTokens_other htoken f ts
  · cases htakes.symm.trans hnot
  · rw [hflag] at htoken ⊢
    exact Flags.readTokens_assign htoken f ts

/-- A name with its value in the next argument. -/
theorem readTokens_apart (htakes : o.arity.takesValue) {v : String}
    (hv : Token.ofString v = .other) (ts : List String) :
    f.readTokens (("--" ++ o.name) :: v :: ts) = (f.give o.name v).readTokens ts := by
  have htoken := Token.ofString_name h.1
  rw [Flags.give]
  rcases h.flag_cases with (hflag | ⟨s, -, hnot⟩) | ⟨s, hflag, -⟩
  · rw [hflag] at htoken ⊢
    exact (Flags.readTokens_other htoken f _).trans (Flags.readTokens_other hv f ts)
  · cases htakes.symm.trans hnot
  · rw [hflag] at htoken ⊢
    exact Flags.readTokens_awaits htoken f v ts

end OptionSpec.Fits

/-! ## Short options -/

/-- The options that one argument gives, with the value that comes after it if one waits for it. -/
def given (os : List (OptionSpec × String)) (waiting : Option OptionSpec) (value : String) :
    List (String × String) :=
  os.map (fun o => (o.1.name, o.2)) ++ (waiting.map fun o => (o.name, value)).toList

/-- The short options are those for the library and for being interactive. -/
theorem letter_cases {c : Char} {o : OptionSpec}
    (h : globalOptions.find? (fun o => o.letter == some c) = some o) :
    (c = 'l' ∧ o.name = "library" ∧ o.arity.takesValue = true) ∨
      (c = 'i' ∧ o.name = "interactive" ∧ o.arity.takesValue = false) := by
  have hmem := List.mem_of_find?_eq_some h
  have hletter := List.find?_some h
  simp only [globalOptions, List.mem_cons, List.not_mem_nil, or_false] at hmem
  rcases hmem with rfl | rfl | rfl | rfl | rfl | rfl
  · exact .inl ⟨(Option.some.inj (eq_of_beq hletter)).symm, rfl, rfl⟩
  · exact .inr ⟨(Option.some.inj (eq_of_beq hletter)).symm, rfl, rfl⟩
  all_goals cases hletter

/-- A short option that takes a value has it in the same argument, or waits for it. -/
theorem cluster?_of_takesValue {specs : List OptionSpec} {c : Char} {o : OptionSpec}
    (hfind : specs.find? (fun o => o.letter == some c) = some o)
    (htakes : o.arity.takesValue = true) (cs : List Char) :
    cluster? specs (c :: cs) =
      match attached? cs with
      | none => some ([], some o)
      | some v => some ([(o, v)], none) := by
  simp only [cluster?, hfind, htakes, if_true]
  fun_cases attached? cs with
  | case3 _ hne => grind
  | _ => rfl

/-- Short options say the same one by one. -/
theorem readTokens_separateShort {cs : List Char} {os : List (OptionSpec × String)}
    {waiting : Option OptionSpec} (h : cluster? globalOptions cs = some (os, waiting)) (f : Flags)
    (value : String) (ts : List String) :
    f.readTokens (separateShort cs ++ (waiting.map fun _ => value).toList ++ ts) =
      (f.giveAll (given os waiting value)).readTokens ts := by
  induction cs generalizing os f with
  | nil =>
    cases h
    rfl
  | cons c cs ih =>
    cases hfind : globalOptions.find? (fun o => o.letter == some c) with
    | none =>
      rw [cluster?, hfind] at h
      cases h
    | some o =>
      rcases letter_cases hfind with ⟨rfl, hname, htakes⟩ | ⟨rfl, hname, htakes⟩
      · have hread (v : String) (ts : List String) :
            f.readTokens (String.ofList ['-', 'l'] :: v :: ts) = (f.give o.name v).readTokens ts := by
          have htoken : Token.ofString (String.ofList ['-', 'l']) = .awaits .library := rfl
          rw [hname, Flags.readTokens_awaits htoken]
          rfl
        rw [cluster?_of_takesValue hfind htakes] at h
        simp only [separateShort, hfind, htakes, if_true]
        cases hattached : attached? cs with
        | none =>
          rw [hattached] at h
          cases h
          exact hread value ts
        | some v =>
          rw [hattached] at h
          cases h
          exact hread v ts
      · have hread (ts : List String) :
            f.readTokens (String.ofList ['-', 'i'] :: ts) = (f.give o.name "").readTokens ts := by
          have htoken : Token.ofString (String.ofList ['-', 'i']) = .switch .interactive := rfl
          rw [hname, Flags.readTokens_switch htoken]
          rfl
        simp only [cluster?, hfind, htakes, Bool.false_eq_true, if_false] at h
        simp only [separateShort, hfind, htakes, Bool.false_eq_true, if_false]
        obtain ⟨⟨os, w⟩, hcs, heq⟩ := Option.map_eq_some_iff.mp h
        cases heq
        exact (hread _).trans (ih hcs (f.give o.name ""))

/-! ## Arguments -/

theorem cluster?_append {specs more : List OptionSpec} (hmore : ∀ o ∈ more, o.letter = none)
    (cs : List Char) : cluster? (specs ++ more) cs = cluster? specs cs := by
  induction cs with
  | nil => rfl
  | cons c cs ih =>
    have hnone : more.find? (fun o => o.letter == some c) = none :=
      List.find?_eq_none.mpr fun o ho => by simp [hmore o ho]
    simp only [cluster?, List.find?_append, hnone, Option.or_none, ih]

/-- How an argument can give options: a name, a name with a value behind `=`, or short options. -/
theorem Argument.ofString?_cases {specs : List OptionSpec} {a : String}
    {os : List (OptionSpec × String)} {waiting : Option OptionSpec}
    (h : Argument.ofString? specs a = some (.options os waiting)) :
    (∃ o ∈ specs, a = "--" ++ o.name ∧
      (o.arity.takesValue = false ∧ os = [(o, "")] ∧ waiting = none ∨
        o.arity.takesValue = true ∧ os = [] ∧ waiting = some o)) ∨
    (∃ o ∈ specs, ∃ v, a = "--" ++ o.name ++ "=" ++ v ∧ o.arity.takesValue = true ∧
      os = [(o, v)] ∧ waiting = none) ∨
    ∃ c cs, c ≠ '-' ∧ a.toList = '-' :: c :: cs ∧ cluster? specs (c :: cs) = some (os, waiting) := by
  unfold Argument.ofString? at h
  split at h
  · next cs hcs =>
    let name := String.ofList (cs.takeWhile (· != '='))
    have hsplit : cs.takeWhile (· != '=') ++ cs.dropWhile (· != '=') = cs :=
      List.takeWhile_append_dropWhile
    dsimp only at h
    cases hfind : specs.find? (·.name = name) with
    | none =>
      rw [hfind] at h
      cases h
    | some o =>
      have ho := List.mem_of_find?_eq_some hfind
      have hname : o.name = name := by simpa using List.find?_some hfind
      rw [hfind] at h
      cases hdrop : cs.dropWhile (· != '=') with
      | nil =>
        have ha : a = "--" ++ o.name := by
          rw [hdrop, List.append_nil] at hsplit
          rw [← String.toList_inj, hcs, hname]
          simp [name, hsplit]
        refine .inl ⟨o, ho, ha, ?_⟩
        rw [hdrop] at h
        dsimp only at h
        split at h
        · next htakes =>
          cases h
          exact .inr ⟨htakes, rfl, rfl⟩
        · next htakes =>
          cases h
          exact .inl ⟨Bool.eq_false_iff.mpr htakes, rfl, rfl⟩
      | cons d v =>
        have hd : d = '=' := by
          have hhead := List.head?_dropWhile_not (· != '=') cs
          rw [hdrop] at hhead
          simpa using hhead
        have ha : a = "--" ++ o.name ++ "=" ++ String.ofList v := by
          rw [hdrop, hd] at hsplit
          rw [← String.toList_inj, hcs, hname]
          simp [name, hsplit]
        rw [hdrop] at h
        dsimp only at h
        split at h
        · next htakes =>
          cases h
          exact .inr (.inl ⟨o, ho, String.ofList v, ha, htakes, rfl, rfl⟩)
        · cases h
  · next c cs hne hcs =>
    obtain ⟨⟨os', waiting'⟩, hcluster, heq⟩ := Option.map_eq_some_iff.mp h
    cases heq
    exact .inr (.inr ⟨c, cs, hne, hcs, hcluster⟩)
  · cases h

/-- An argument that gives no options does not look like one. -/
theorem Argument.looksLikeOption_of_other {specs : List OptionSpec} {a : String}
    (h : Argument.ofString? specs a = some .other) : looksLikeOption a = false := by
  unfold Argument.ofString? at h
  split at h
  · dsimp only at h
    split at h
    · cases h
    · split at h <;> cases h
    · split at h <;> cases h
  · obtain ⟨_, _, heq⟩ := Option.map_eq_some_iff.mp h
    cases heq
  · next _ hne =>
    by_contra hlooks
    simp only [looksLikeOption, Bool.not_eq_false, Bool.and_eq_true, beq_iff_eq, bne_iff_ne]
      at hlooks
    obtain ⟨cs, hcs⟩ := List.head?_eq_some_iff.mp hlooks.1
    cases cs with
    | nil => exact hlooks.2 (String.toList_inj.mp hcs)
    | cons c cs => exact hne c cs hcs

/-- An argument that does not look like an option is not taken apart. -/
theorem separate_of_not_looksLikeOption {a : String} (h : looksLikeOption a = false) :
    separate a = [a] := by
  unfold separate
  split
  · next c cs hcs =>
    have hne : a ≠ "-" := by
      rintro rfl
      simp at hcs
    simp [looksLikeOption, hcs, hne] at h
  · rfl

/-- Options for every command, and others that have no letters; flags are among them what they are
among tokens. -/
structure Usual (specs : List OptionSpec) : Prop where
  letters : ∃ more, specs = globalOptions ++ more ∧ ∀ o ∈ more, o.letter = none
  fits : ∀ o ∈ specs, o.Fits

/-- What an argument gives is given by its parts, and by the value after it if one waits for it. -/
theorem Usual.readTokens_separate {specs : List OptionSpec} (h : Usual specs) {a : String}
    {os : List (OptionSpec × String)} {waiting : Option OptionSpec}
    (ha : Argument.ofString? specs a = some (.options os waiting)) (f : Flags) {value : String}
    (hvalue : looksLikeOption value = false) (ts : List String) :
    f.readTokens (separate a ++ (waiting.map fun _ => value).toList ++ ts) =
      (f.giveAll (given os waiting value)).readTokens ts := by
  have hwhole (s : String) : separate ("--" ++ s) = ["--" ++ s] := by simp [separate]
  rcases Argument.ofString?_cases ha with ⟨o, ho, rfl, hcases⟩ | ⟨o, ho, v, rfl, htakes, rfl, rfl⟩ |
    ⟨c, cs, hc, hcs, hcluster⟩
  · rw [hwhole]
    rcases hcases with ⟨htakes, rfl, rfl⟩ | ⟨htakes, rfl, rfl⟩
    · exact (h.fits o ho).readTokens_alone f htakes ts
    · exact (h.fits o ho).readTokens_apart f htakes (ofString_of_not_looksLikeOption hvalue) ts
  · rw [String.append_assoc, String.append_assoc, hwhole, ← String.append_assoc, ← String.append_assoc]
    exact (h.fits o ho).readTokens_attached f htakes v ts
  · obtain ⟨more, rfl, hmore⟩ := h.letters
    rw [cluster?_append hmore] at hcluster
    have hsep : separate a = separateShort (c :: cs) := by simp only [separate, hcs, if_neg hc]
    rw [hsep]
    exact readTokens_separateShort hcluster f value ts

namespace Scanned

/-- The arguments after the command, if there is one. -/
def rest (s : Scanned) : List String := (s.command.map (·.2)).getD []

theorem options_foldr (os : List (OptionSpec × String)) (s : Scanned) :
    (os.foldr (fun o s => s.withOption o.1 o.2) s).options =
      os.map (fun o => (o.1.name, o.2)) ++ s.options := by
  induction os with
  | nil => rfl
  | cons o os ih => exact congrArg ((o.1.name, o.2) :: ·) ih

theorem rest_foldr (os : List (OptionSpec × String)) (s : Scanned) :
    (os.foldr (fun o s => s.withOption o.1 o.2) s).rest = s.rest := by
  induction os with
  | nil => rfl
  | cons o os ih => exact ih

end Scanned

theorem separated_cons_of_not_looksLikeOption {a : String} (h : looksLikeOption a = false)
    (as : List String) : separated (a :: as) = a :: separated as := by
  have hne : a ≠ "--" := by
    rintro rfl
    exact absurd h (by decide)
  rw [separated_cons hne, separate_of_not_looksLikeOption h, List.singleton_append]

/-- The options that are scanned are those that the parts of the arguments give. -/
theorem Usual.readTokens_scan {specs : List OptionSpec} (h : Usual specs) {commands as : List String}
    {s : Scanned} (hs : scan? specs commands as = some s) (f : Flags) (ts : List String) :
    f.readTokens (separated as ++ ts) =
      (f.giveAll s.options).readTokens (separated s.rest ++ ts) := by
  have hskip {a : String} (ha : Argument.ofString? specs a = some .other) (as : List String)
      (f : Flags) : f.readTokens (separated (a :: as) ++ ts) = f.readTokens (separated as ++ ts) := by
    have hlooks := Argument.looksLikeOption_of_other ha
    rw [separated_cons_of_not_looksLikeOption hlooks, List.cons_append,
      Flags.readTokens_other (ofString_of_not_looksLikeOption hlooks)]
  fun_induction scan? specs commands as generalizing s f with
  | case1 =>
    cases hs
    rfl
  | case2 as =>
    cases hs
    rfl
  | case3 => cases hs
  | case4 a _ as ha =>
    cases hs
    exact hskip ha as f
  | case5 a _ as ha _ ih =>
    obtain ⟨s', hscan, rfl⟩ := Option.map_eq_some_iff.mp hs
    rw [hskip ha]
    exact ih hscan f
  | case6 a hne os as ha ih =>
    obtain ⟨s', hscan, rfl⟩ := Option.map_eq_some_iff.mp hs
    have hempty : looksLikeOption "" = false := rfl
    have hread := h.readTokens_separate ha f hempty (separated as ++ ts)
    simp only [given, Option.map_none, Option.toList_none, List.append_nil] at hread
    rw [separated_cons hne, List.append_assoc, hread, ih hscan, Scanned.options_foldr,
      Scanned.rest_foldr, Flags.giveAll_append]
  | case7 => cases hs
  | case8 a hne os o v as ha hv ih =>
    obtain ⟨s', hscan, rfl⟩ := Option.map_eq_some_iff.mp hs
    have hlooks : looksLikeOption v = false := Bool.eq_false_iff.mpr hv
    have hread := h.readTokens_separate ha f hlooks (separated as ++ ts)
    have hlist : separate a ++ v :: separated as ++ ts =
        separate a ++ [v] ++ (separated as ++ ts) := by simp
    have hoptions : os.map (fun o => (o.1.name, o.2)) ++ (s'.withOption o v).options =
        given os (some o) v ++ s'.options := by simp [given, Scanned.withOption]
    rw [separated_cons hne, separated_cons_of_not_looksLikeOption hlooks, hlist,
      Scanned.options_foldr, hoptions, Scanned.rest_foldr, Flags.giveAll_append]
    exact hread.trans (ih hscan _)
  | case9 => cases hs

/-! ## Valid options -/

namespace Scanned

/-- An option that may not be repeated has no value or one, which is valid. -/
theorem values_cases {specs : List OptionSpec} {s : Scanned} (hs : s.valid specs)
    {o : OptionSpec} (ho : o ∈ specs) (hrepeats : o.arity.repeats = false) :
    s.values o.name = [] ∨ ∃ v, s.values o.name = [v] ∧ o.arity.accepts v = true := by
  have hvalid := List.all_eq_true.mp hs o ho
  rw [hrepeats, Bool.false_or, Bool.and_eq_true, decide_eq_true_eq] at hvalid
  obtain ⟨haccepts, hlen⟩ := hvalid
  rcases hvalues : s.values o.name with _ | ⟨v, _ | ⟨w, vs⟩⟩
  · exact .inl rfl
  · rw [hvalues] at haccepts
    exact .inr ⟨v, rfl, by simpa using haccepts⟩
  · rw [hvalues] at hlen
    simp at hlen

/-- A setting that has one value at most is set to that. -/
theorem setting_giveAll {α : Type} {part : Flags → Option α} {name : String}
    {read : String → Option α}
    (hpart : ∀ (f : Flags) (n v : String), part (f.give n v) = if n = name then read v else part f)
    {s : Scanned} (hvalues : s.values name = [] ∨ ∃ v, s.values name = [v] ∧ (read v).isSome = true)
    (f : Flags) : part (f.giveAll s.options) = ((s.value? name).bind read <|> part f) := by
  rw [Flags.setting_giveAll hpart, value?]
  change (s.values name).foldl _ _ = _
  rcases hvalues with hnone | ⟨v, hv, hread⟩
  · rw [hnone]
    rfl
  · obtain ⟨x, hx⟩ := Option.isSome_iff_exists.mp hread
    rw [hv, List.head?_cons, Option.bind_some, hx]
    exact hx

end Scanned

/-- Valid options give the flags that are read from them. -/
theorem Usual.giveAll_options {specs : List OptionSpec} (h : Usual specs) {s : Scanned}
    (hs : s.valid specs) (f : Flags) : f.giveAll s.options = f.union s.flags := by
  obtain ⟨more, rfl, -⟩ := h.letters
  have hvalues : ∀ o ∈ globalOptions, s.values o.name = [] ∨
      ∃ v, s.values o.name = [v] ∧ o.arity.accepts v = true := by
    have hrepeats : ∀ o ∈ globalOptions, o.arity.repeats = false := by decide
    exact fun o ho => Scanned.values_cases hs (List.mem_append_left more ho) (hrepeats o ho)
  simp only [globalOptions, List.forall_mem_cons] at hvalues
  obtain ⟨hlibrary, -, -, hdepth, hsignal, -, -⟩ := hvalues
  ext1
  · exact Flags.switch_giveAll (fun f n v => by rw [f.give_eq]) f s.options
  · exact Flags.switch_giveAll (fun f n v => by rw [f.give_eq]) f s.options
  · exact Flags.switch_giveAll (fun f n v => by rw [f.give_eq]) f s.options
  · exact Scanned.setting_giveAll (fun f n v => by rw [f.give_eq]) hdepth f
  · exact Scanned.setting_giveAll (fun f n v => by rw [f.give_eq]) hsignal f
  · have hsome : s.values "library" = [] ∨
        ∃ v, s.values "library" = [v] ∧ (some v).isSome = true :=
      hlibrary.imp_right fun ⟨v, hv, _⟩ => ⟨v, hv, rfl⟩
    have hset := @Scanned.setting_giveAll _ (·.library) _ _ (fun f n v => by rw [f.give_eq]) s hsome f
    rwa [Option.bind_fun_some] at hset

/-! ## Command lines -/

instance (o : OptionSpec) : Decidable o.Fits := inferInstanceAs (Decidable (_ ∧ _))

theorem usual_topOptions : Usual topOptions := ⟨⟨_, rfl, by decide⟩, by decide⟩

theorem usual_expandOptions : Usual expandOptions := ⟨⟨_, List.append_assoc .., by decide⟩, by decide⟩

theorem usual_completeOptions : Usual completeOptions :=
  ⟨⟨_, List.append_assoc .., by decide⟩, by decide⟩

theorem usual_globalOptions : Usual globalOptions :=
  ⟨⟨[], (List.append_nil _).symm, by decide⟩, by decide⟩

/-- Where no command is looked for, there is nothing after it. -/
theorem rest_of_scan {specs : List OptionSpec} {as : List String} {s : Scanned}
    (hs : scan? specs [] as = some s) : s.rest = [] := by
  fun_induction scan? specs [] as generalizing s with
  | case1 | case2 =>
    cases hs
    rfl
  | case4 a _ as _ ha => cases ha
  | case5 a _ as _ _ ih =>
    obtain ⟨s', hscan, rfl⟩ := Option.map_eq_some_iff.mp hs
    exact ih (s := s') hscan
  | case6 a _ os as _ ih =>
    obtain ⟨s', hscan, rfl⟩ := Option.map_eq_some_iff.mp hs
    exact (Scanned.rest_foldr os s').trans (ih hscan)
  | case8 a _ os o v as _ _ ih =>
    obtain ⟨s', hscan, rfl⟩ := Option.map_eq_some_iff.mp hs
    exact (Scanned.rest_foldr os _).trans (ih (s := s') hscan)
  | case3 | case7 | case9 => cases hs

/-- Valid arguments say what their options do, and then what comes after the command. -/
theorem Usual.readTokens_scanValid {specs : List OptionSpec} (h : Usual specs)
    {commands as : List String} {s : Scanned} (hs : scanValid? specs commands as = some s)
    (f : Flags) (ts : List String) :
    f.readTokens (separated as ++ ts) =
      (f.union s.flags).readTokens (separated s.rest ++ ts) := by
  obtain ⟨hscan, hvalid⟩ := Option.filter_eq_some_iff.mp hs
  rw [h.readTokens_scan hscan, h.giveAll_options hvalid]

/-- The arguments of a command say what its flags do. -/
theorem Command.readTokens_parse {name : String} {as : List String} {command : Command}
    {flags : Flags} (h : Command.parse? name as = some (command, flags)) (f : Flags)
    (ts : List String) : f.readTokens (separated as ++ ts) = (f.union flags).readTokens ts := by
  have hread {specs : List OptionSpec} (hspecs : Usual specs) {s : Scanned}
      (hs : scanValid? specs [] as = some s) :
      f.readTokens (separated as ++ ts) = (f.union s.flags).readTokens ts := by
    rw [hspecs.readTokens_scanValid hs, rest_of_scan (Option.filter_eq_some_iff.mp hs).1]
    rfl
  unfold Command.parse? at h
  split at h
  · obtain ⟨s, hs, h⟩ := Option.bind_eq_some_iff.mp h
    split at h
    · cases h
      exact hread usual_expandOptions hs
    · cases h
  · obtain ⟨s, hs, h⟩ := Option.bind_eq_some_iff.mp h
    split at h
    · cases h
      exact hread usual_completeOptions hs
    · cases h
  · obtain ⟨s, hs, h⟩ := Option.bind_eq_some_iff.mp h
    split at h
    · cases h
      exact hread usual_globalOptions hs
    · cases h
  · cases h

/-- A command line says what its flags do. -/
theorem Invocation.readTokens_parse {as : List String} {i : Invocation}
    (h : Invocation.parse? as = some i) (ts : List String) :
    ({} : Flags).readTokens (separated as ++ ts) = i.flags.readTokens ts := by
  obtain ⟨s, hs, h⟩ := Option.bind_eq_some_iff.mp h
  have hread := usual_topOptions.readTokens_scanValid hs {} ts
  rw [Flags.empty_union] at hread
  rw [hread]
  dsimp only at h
  split at h
  · cases h
  · split at h
    · next hcommand =>
      cases h
      rw [Scanned.rest, hcommand]
      rfl
    · next name rest hcommand =>
      obtain ⟨⟨command, flags⟩, hparse, h⟩ := Option.bind_eq_some_iff.mp h
      cases h
      rw [Scanned.rest, hcommand]
      exact Command.readTokens_parse hparse s.flags ts

/-- The flags of a command line are those of the tokens that it is when each short option has an
argument of its own and nothing is left from `--` on.  So they are those of its arguments as they are
if short options stand so already and no flag stands behind `--`. -/
theorem Invocation.flags_parse {as : List String} {i : Invocation}
    (h : Invocation.parse? as = some i) :
    i.flags = Flags.ofTokens (separated as) ∧
      ((∀ a ∈ as.takeWhile (· != "--"), separate a = [a]) →
        (∀ a ∈ as.dropWhile (· != "--"), Token.ofString a = .other) →
        Flags.ofTokens as = i.flags) := by
  constructor
  · have hread := Invocation.readTokens_parse h []
    rw [List.append_nil] at hread
    exact hread.symm
  · intro hparts hothers
    have hwhole : separated as = as.takeWhile (· != "--") := by
      rw [separated, List.flatMap_congr hparts, List.flatMap_singleton']
    have hread := Invocation.readTokens_parse h (as.dropWhile (· != "--"))
    rw [hwhole, List.takeWhile_append_dropWhile, Flags.readTokens_others hothers] at hread
    exact hread

/-- Two short options behind one hyphen, a value that is attached to its option, and an operand that
looks like an option.  The same flags from short options that stand alone, with an operand behind `--`
that does not look like one. -/
theorem Invocation.flags_parse_cluster :
    let as := ["-il", "a.json5", "expand", "-lb.json5", "--max-depth=3", "--", "--json"]
    let as' := ["-i", "-l", "a.json5", "expand", "-l", "b.json5", "--max-depth=3", "--", "for"]
    let flags : Flags := { interactive := true, maxDepth := some 3, library := some "b.json5" }
    (Invocation.parse? as = some { flags, command := some (.expand "--json" none {}) } ∧
      separated as = ["-i", "-l", "a.json5", "expand", "-l", "b.json5", "--max-depth=3"] ∧
      flags = Flags.ofTokens (separated as)) ∧
      Invocation.parse? as' = some { flags, command := some (.expand "for" none {}) } ∧
        Flags.ofTokens as' = flags := by
  intro as as' flags
  have parsed : Invocation.parse? as =
      some { flags, command := some (.expand "--json" none {}) } := by decide
  have parsed' : Invocation.parse? as' =
      some { flags, command := some (.expand "for" none {}) } := by decide
  have alone : ∀ a ∈ as'.takeWhile (· != "--"), separate a = [a] := by decide
  have others : ∀ a ∈ as'.dropWhile (· != "--"), Token.ofString a = .other := by decide
  obtain ⟨separately, -⟩ := Invocation.flags_parse parsed
  obtain ⟨-, asTheyAre⟩ := Invocation.flags_parse parsed'
  exact ⟨⟨parsed, by decide, separately⟩, parsed', asTheyAre alone others⟩

/-- A library that is attached to its option is not seen among the tokens, and an operand that looks
like an option is. -/
theorem Invocation.flags_parse_unseen :
    let as := ["list", "-llib.json5"]
    let i : Invocation := { flags := { library := some "lib.json5" }, command := some .list }
    let as' := ["expand", "--", "--json"]
    let i' : Invocation := { command := some (.expand "--json" none {}) }
    (Invocation.parse? as = some i ∧ Flags.ofTokens as = {} ∧ i.flags ≠ Flags.ofTokens as) ∧
      Invocation.parse? as' = some i' ∧ Flags.ofTokens as' = { json := true } ∧
      i'.flags ≠ Flags.ofTokens as' := by
  decide

end CommandLine

end TextTemplate
