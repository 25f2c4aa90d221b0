import TextTemplate.Proofs.FlagsFile

/-!
# Tokens that name options

A token that is a name after two hyphens, perhaps with `=` and a value, says what the name is for
(`Token.ofString_name`, `Token.ofString_assign`).  So a name with its value has one effect on flags,
however the two are written down, and that is `Flags.give`.  Each part of the flags is changed by one
name alone, which gives what a list of names and values makes of it (`Flags.switch_giveAll`,
`Flags.setting_giveAll`).
-/

namespace TextTemplate

namespace Config

/-! ## What names are for -/

attribute [ext] Flags

/-- The switch or the setting that the name of an option is for. -/
def flagOf? : String → Option (Switch ⊕ Setting)
  | "interactive" => some (.inl .interactive)
  | "silent" => some (.inl .silent)
  | "json" => some (.inl .json)
  | "max-depth" => some (.inr .maxDepth)
  | "signal" => some (.inr .signal)
  | "library" => some (.inr .library)
  | _ => none

namespace Flags

/-- Gives the flag of a name a value, which a switch does not look at. -/
def give (f : Flags) (name value : String) : Flags :=
  match flagOf? name with
  | some (.inl s) => f.turnOn s
  | some (.inr s) => f.set s value
  | none => f

/-- Gives flags their values in order. -/
def giveAll (f : Flags) (options : List (String × String)) : Flags :=
  options.foldl (fun f o => f.give o.1 o.2) f

/-- What the name does not stand for stays. -/
theorem give_eq (f : Flags) (name value : String) :
    f.give name value =
      { interactive := if name = "interactive" then true else f.interactive
        silent := if name = "silent" then true else f.silent
        json := if name = "json" then true else f.json
        maxDepth := if name = "max-depth" then Text.word? value.toList else f.maxDepth
        signal := if name = "signal" then Signal.ofName? value else f.signal
        library := if name = "library" then some value else f.library } := by
  rw [give]
  fun_cases flagOf? name with
  | case7 _ h₁ h₂ h₃ h₄ h₅ h₆ =>
    rw [if_neg h₁, if_neg h₂, if_neg h₃, if_neg h₄, if_neg h₅, if_neg h₆]
  | _ => rfl

/-- What only one name turns on is on if that name is there. -/
theorem switch_giveAll {part : Flags → Bool} {name : String}
    (h : ∀ (f : Flags) (n v : String), part (f.give n v) = if n = name then true else part f)
    (f : Flags) (options : List (String × String)) :
    part (f.giveAll options) = (part f || options.any fun o => o.1 = name) := by
  induction options generalizing f with
  | nil => exact (Bool.or_false _).symm
  | cons o options ih =>
    rw [giveAll, List.foldl_cons, ← giveAll, ih, h, List.any_cons]
    by_cases ho : o.1 = name
    · simp [ho]
    · simp [ho]

/-- What only one name sets is set by the values of that name in order. -/
theorem setting_giveAll {α : Type} {part : Flags → α} {name : String} {read : String → α}
    (h : ∀ (f : Flags) (n v : String), part (f.give n v) = if n = name then read v else part f)
    (f : Flags) (options : List (String × String)) :
    part (f.giveAll options) =
      ((options.filter fun o => o.1 = name).map (·.2)).foldl (fun _ v => read v) (part f) := by
  induction options generalizing f with
  | nil => rfl
  | cons o options ih =>
    rw [giveAll, List.foldl_cons, ← giveAll, ih, h, List.filter_cons]
    by_cases ho : o.1 = name
    · simp [ho]
    · simp [ho]

theorem empty_union (f : Flags) : ({} : Flags).union f = f := by
  ext1 <;> simp [union]

theorem giveAll_append (f : Flags) (options options' : List (String × String)) :
    f.giveAll (options ++ options') = (f.giveAll options).giveAll options' := List.foldl_append

end Flags

/-! ## What tokens say -/

/-- A token says nothing if it is not the name of a flag and does not start with one and `=`. -/
theorem Token.ofString_eq_other {t : String}
    (hname : t ∉ ["--interactive", "-i", "--silent", "--json", "--max-depth", "--signal",
      "--library", "-l"])
    (hafter : ∀ lead ∈ ["--max-depth=", "--signal=", "--library="],
      Text.afterString? lead t = none) : Token.ofString t = .other := by
  simp only [List.mem_cons, List.not_mem_nil, or_false, not_or] at hname
  simp only [List.mem_cons, List.not_mem_nil, or_false, forall_eq_or_imp, forall_eq] at hafter
  simp [ofString, hname, hafter]

theorem afterString?_of_not_mem {lead t : String} (hlead : '=' ∈ lead.toList)
    (ht : '=' ∉ t.toList) : Text.afterString? lead t = none := by
  cases h : Text.after? lead.toList t.toList with
  | none => rw [Text.afterString?, h, Option.map_none]
  | some r =>
    rw [Text.after?_eq_some_iff.mp h] at ht
    exact absurd (List.mem_append_left r hlead) ht

/-- A name in front of `=` is the whole name. -/
theorem afterString?_assign {n name : String} (hn : '=' ∉ n.toList) (hname : '=' ∉ name.toList)
    (v : String) :
    Text.afterString? ("--" ++ n ++ "=") ("--" ++ name ++ "=" ++ v) =
      if name = n then some v else none := by
  have hlead {m : String} (hm : '=' ∉ m.toList) (r : List Char) :
      (m.toList ++ '=' :: r).takeWhile (· != '=') = m.toList := by
    rw [List.takeWhile_append_of_pos, List.takeWhile_cons_of_neg (by simp), List.append_nil]
    intro c hc
    exact bne_iff_ne.mpr fun heq => hm (heq ▸ hc)
  rw [Text.afterString?]
  split
  · next heq =>
    rw [heq, Text.after?_eq_some_iff.mpr String.toList_append, Option.map_some, String.ofList_toList]
  · next hne =>
    cases h : Text.after? ("--" ++ n ++ "=").toList ("--" ++ name ++ "=" ++ v).toList with
    | none => rfl
    | some r =>
      have heq : name.toList ++ '=' :: v.toList = n.toList ++ '=' :: r := by
        simpa using Text.after?_eq_some_iff.mp h
      have hsame := congrArg (List.takeWhile (· != '=')) heq
      rw [hlead hname, hlead hn] at hsame
      exact absurd (String.toList_inj.mp hsame) hne

/-- A name without `=` says nothing unless it is that of a flag. -/
theorem Token.ofString_name {name : String} (hname : '=' ∉ name.toList) :
    Token.ofString ("--" ++ name) =
      match flagOf? name with
      | some (.inl s) => .switch s
      | some (.inr s) => .awaits s
      | none => .other := by
  fun_cases flagOf? name with
  | case7 _ h₁ h₂ h₃ h₄ h₅ h₆ =>
    have hlong {n : String} (hn : name ≠ n) : "--" ++ name ≠ "--" ++ n :=
      fun h => hn ((String.append_right_inj _).mp h)
    have hshort {c : Char} (hc : '-' ≠ c) : "--" ++ name ≠ String.ofList ['-', c] := by
      intro h
      have hlist := congrArg String.toList h
      simp [hc] at hlist
    refine Token.ofString_eq_other ?_ ?_
    · simp only [List.mem_cons, List.not_mem_nil, or_false, not_or]
      exact ⟨hlong h₁, hshort (by decide), hlong h₂, hlong h₃, hlong h₄, hlong h₅, hlong h₆,
        hshort (by decide)⟩
    · have hassigns : ∀ lead ∈ ["--max-depth=", "--signal=", "--library="],
          '=' ∈ lead.toList := by decide
      exact fun lead hlead => afterString?_of_not_mem (hassigns lead hlead) (by simpa using hname)
  | _ => rfl

/-- A token with `=` in it can only give a setting its value. -/
theorem Token.ofString_of_mem {t : String} (ht : '=' ∈ t.toList) :
    Token.ofString t =
      ((Text.afterString? "--max-depth=" t).map (Token.assign .maxDepth) <|>
        (Text.afterString? "--signal=" t).map (Token.assign .signal) <|>
        (Text.afterString? "--library=" t).map (Token.assign .library)).getD .other := by
  have hne {n : String} (hn : '=' ∉ n.toList) : t ≠ n := fun h => hn (h ▸ ht)
  have hnames : ∀ n ∈ ["--interactive", "-i", "--silent", "--json", "--max-depth", "--signal",
      "--library", "-l"], '=' ∉ n.toList := by decide
  simp only [List.mem_cons, List.not_mem_nil, or_false, forall_eq_or_imp, forall_eq] at hnames
  obtain ⟨h₁, h₂, h₃, h₄, h₅, h₆, h₇, h₈⟩ := hnames
  simp only [ofString, hne h₁, hne h₂, hne h₃, hne h₄, hne h₅, hne h₆, hne h₇, hne h₈, or_self,
    if_false]
  cases Text.afterString? "--max-depth=" t <;> cases Text.afterString? "--signal=" t <;>
    cases Text.afterString? "--library=" t <;> rfl

/-- A value in the token of a name says nothing unless the name is that of a setting. -/
theorem Token.ofString_assign {name : String} (hname : '=' ∉ name.toList) (v : String) :
    Token.ofString ("--" ++ name ++ "=" ++ v) =
      match flagOf? name with
      | some (.inr s) => .assign s v
      | _ => .other := by
  have hafter {n : String} (hn : '=' ∉ n.toList) := afterString?_assign hn hname v
  have hdepth : Text.afterString? "--max-depth=" ("--" ++ name ++ "=" ++ v) = _ :=
    hafter (n := "max-depth") (by decide)
  have hsignal : Text.afterString? "--signal=" ("--" ++ name ++ "=" ++ v) = _ :=
    hafter (n := "signal") (by decide)
  have hlibrary : Text.afterString? "--library=" ("--" ++ name ++ "=" ++ v) = _ :=
    hafter (n := "library") (by decide)
  rw [Token.ofString_of_mem (by simp), hdepth, hsignal, hlibrary]
  fun_cases flagOf? name with
  | case7 _ h₁ h₂ h₃ h₄ h₅ h₆ =>
    rw [if_neg h₄, if_neg h₅, if_neg h₆]
    rfl
  | _ => rfl

namespace Flags

theorem readTokens_assign {t : String} {s : Setting} {v : String}
    (h : Token.ofString t = .assign s v) (f : Flags) (ts : List String) :
    f.readTokens (t :: ts) = (f.set s v).readTokens ts := by
  rw [readTokens.eq_def]
  simp only [h]

theorem readTokens_other {t : String} (h : Token.ofString t = .other) (f : Flags)
    (ts : List String) : f.readTokens (t :: ts) = f.readTokens ts := by
  rw [readTokens.eq_def]
  simp only [h]

/-- Tokens that say nothing. -/
theorem readTokens_others {ts : List String} (h : ∀ t ∈ ts, Token.ofString t = .other)
    (f : Flags) : f.readTokens ts = f := by
  induction ts with
  | nil => rfl
  | cons t ts ih =>
    rw [readTokens_other (h t List.mem_cons_self)]
    exact ih fun t ht => h t (List.mem_cons_of_mem _ ht)

end Flags

end Config

end TextTemplate
