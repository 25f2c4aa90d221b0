import TextTemplate.Proofs.OptionTokens

/-!
# Values that are not understood

Tokens are options with their values (`Flags.readTokens_eq_giveAll`), and those of two lists of tokens
are those of one and then of the other, unless the first list ends in an option that waits for its
value: that option takes the first token of the second list (`optionsOf_append`).

A value that is not understood takes away the value that its setting had.  So it makes no difference
just if there was none or if another value comes later (`Flags.ofTokens_malformed`), and options
have the effect of flags that are merged just if no value that is there before is taken away so
(`Flags.giveAll_eq_union_iff`).
-/

namespace TextTemplate

namespace Config

/-! ## Settings -/

/-- The name of the option for a switch. -/
def Switch.name : Switch → String
  | interactive => "interactive"
  | silent => "silent"
  | json => "json"

namespace Setting

/-- The name of the option for a setting. -/
def name : Setting → String
  | maxDepth => "max-depth"
  | signal => "signal"
  | library => "library"

/-- The ways to write down an option with a value. -/
def spellings (s : Setting) (v : String) : List (List String) :=
  [["--" ++ s.name, v], ["--" ++ s.name ++ "=" ++ v]]

/-- Whether a setting understands a value: a number of one word, the name of a signal, any path. -/
def accepts : Setting → String → Bool
  | maxDepth, v => (Text.word? v.toList).isSome
  | signal, v => (Signal.ofName? v).isSome
  | library, _ => true

end Setting

theorem flagOf?_switch (s : Switch) : flagOf? s.name = some (.inl s) := by cases s <;> rfl

theorem flagOf?_setting (s : Setting) : flagOf? s.name = some (.inr s) := by cases s <;> rfl

namespace Flags

/-- Whether a setting has a value. -/
def has (f : Flags) : Setting → Bool
  | .maxDepth => f.maxDepth.isSome
  | .signal => f.signal.isSome
  | .library => f.library.isSome

/-- The flags with no value for a setting. -/
def without (f : Flags) : Setting → Flags
  | .maxDepth => { f with maxDepth := none }
  | .signal => { f with signal := none }
  | .library => { f with library := none }

variable (f : Flags) (s : Setting)

theorem give_switch (s : Switch) (v : String) : f.give s.name v = f.turnOn s := by
  rw [give, flagOf?_switch]

theorem give_setting (v : String) : f.give s.name v = f.set s v := by
  rw [give, flagOf?_setting]

theorem giveAll_cons (n v : String) (os : List (String × String)) :
    f.giveAll ((n, v) :: os) = (f.give n v).giveAll os := rfl

/-- A value that is not understood takes away the one that was there. -/
theorem set_of_not_accepts {v : String} (hv : s.accepts v = false) : f.set s v = f.without s := by
  cases s with
  | maxDepth => rw [set, without, Option.isNone_iff_eq_none.mp (Option.isSome_eq_false_iff.mp hv)]
  | signal => rw [set, without, Option.isNone_iff_eq_none.mp (Option.isSome_eq_false_iff.mp hv)]
  | library => cases hv

theorem has_set (t : Setting) (v : String) :
    (f.set s v).has t = if s = t then s.accepts v else f.has t := by
  cases s <;> cases t <;> rfl

end Flags

/-! ## Options among tokens -/

/-- The options that tokens give, each with its value; that of a switch is empty. -/
def optionsOf : List String → List (String × String)
  | [] => []
  | t :: ts =>
    match Token.ofString t, ts with
    | .switch s, ts => (s.name, "") :: optionsOf ts
    | .assign s v, ts => (s.name, v) :: optionsOf ts
    | .awaits s, v :: ts => (s.name, v) :: optionsOf ts
    | .awaits _, [] => []
    | .other, ts => optionsOf ts

/-- The setting that still waits for its value at the end of some tokens. -/
def waiting? : List String → Option Setting
  | [] => none
  | t :: ts =>
    match Token.ofString t, ts with
    | .switch _, ts => waiting? ts
    | .assign _ _, ts => waiting? ts
    | .awaits _, _ :: ts => waiting? ts
    | .awaits s, [] => some s
    | .other, ts => waiting? ts

/-- The value that a name is given last. -/
def lastValue? (name : String) (os : List (String × String)) : Option String :=
  ((os.filter fun o => o.1 = name).map (·.2)).getLast?

theorem mem_of_lastValue? {name v : String} {os : List (String × String)}
    (h : lastValue? name os = some v) : (name, v) ∈ os := by
  obtain ⟨o, ho, rfl⟩ := List.mem_map.mp (List.mem_of_getLast? h)
  obtain ⟨ho, hname⟩ := List.mem_filter.mp ho
  rwa [← of_decide_eq_true hname]

section

variable {t : String} (ts : List String)

theorem optionsOf_switch {s : Switch} (h : Token.ofString t = .switch s) :
    optionsOf (t :: ts) = (s.name, "") :: optionsOf ts := by
  rw [optionsOf.eq_def]
  simp only [h]

theorem optionsOf_assign {s : Setting} {v : String} (h : Token.ofString t = .assign s v) :
    optionsOf (t :: ts) = (s.name, v) :: optionsOf ts := by
  rw [optionsOf.eq_def]
  simp only [h]

theorem optionsOf_awaits {s : Setting} (h : Token.ofString t = .awaits s) (v : String) :
    optionsOf (t :: v :: ts) = (s.name, v) :: optionsOf ts := by
  rw [optionsOf.eq_def]
  simp only [h]

theorem optionsOf_other (h : Token.ofString t = .other) :
    optionsOf (t :: ts) = optionsOf ts := by
  rw [optionsOf.eq_def]
  simp only [h]

end

/-- Tokens do what their options do. -/
theorem Flags.readTokens_eq_giveAll (f : Flags) (ts : List String) :
    f.readTokens ts = f.giveAll (optionsOf ts) := by
  fun_induction Flags.readTokens f ts with
  | case1 => rfl
  | case2 f t s ts hs ih => rw [ih, optionsOf_switch ts hs, giveAll_cons, give_switch]
  | case3 f t s v ts hs ih => rw [ih, optionsOf_assign ts hs, giveAll_cons, give_setting]
  | case4 f t s v ts hs ih => rw [ih, optionsOf_awaits ts hs, giveAll_cons, give_setting]
  | case5 f t s hs =>
    rw [optionsOf.eq_def]
    simp only [hs]
    rfl
  | case6 f t ts hs ih => rw [ih, optionsOf_other ts hs]

/-- The options that tokens give when a setting waits for its value. -/
def optionsAfter : Option Setting → List String → List (String × String)
  | none, ts => optionsOf ts
  | some _, [] => []
  | some s, v :: ts => (s.name, v) :: optionsOf ts

@[simp] theorem optionsAfter_nil (s : Option Setting) : optionsAfter s [] = [] := by
  cases s <;> rfl

/-- An option that waits takes the token that follows, and otherwise the tokens that follow are read by
themselves. -/
theorem optionsOf_append (a b : List String) :
    optionsOf (a ++ b) = optionsOf a ++ optionsAfter (waiting? a) b := by
  fun_induction waiting? a with
  | case1 => rfl
  | case2 t s ts hs ih =>
    rw [List.cons_append, optionsOf_switch _ hs, optionsOf_switch _ hs, ih, List.cons_append]
  | case3 t s v ts hs ih =>
    rw [List.cons_append, optionsOf_assign _ hs, optionsOf_assign _ hs, ih, List.cons_append]
  | case4 t s v ts hs ih =>
    rw [List.cons_append, List.cons_append, optionsOf_awaits _ hs, optionsOf_awaits _ hs, ih,
      List.cons_append]
  | case5 t s hs =>
    -- only an option that waits in the end reaches into the second list
    have halone : optionsOf [t] = [] := by simp only [optionsOf.eq_def [t], hs]
    rw [halone]
    cases b with
    | nil => exact halone
    | cons v b => exact optionsOf_awaits b hs v
  | case6 t ts hs ih => rw [List.cons_append, optionsOf_other _ hs, optionsOf_other _ hs, ih]

/-- After an option that has its value, the tokens that follow are all that can wait. -/
theorem waiting?_append {a : List String} (h : waiting? a = none) (b : List String) :
    waiting? (a ++ b) = waiting? b := by
  fun_induction waiting? a with
  | case1 => rfl
  | case2 _ _ _ hs ih | case3 _ _ _ _ hs ih | case4 _ _ _ _ hs ih | case6 _ _ hs ih =>
    rw [List.cons_append, waiting?.eq_def]
    simp only [hs]
    exact ih h
  | case5 => cases h

theorem optionsOf_spelling {s : Setting} {v : String} {option : List String}
    (h : option ∈ s.spellings v) (b : List String) :
    optionsOf (option ++ b) = (s.name, v) :: optionsOf b := by
  have hname : '=' ∉ s.name.toList := by cases s <;> decide
  rcases List.mem_pair.mp h with rfl | rfl
  · refine optionsOf_awaits b ?_ v
    rw [Token.ofString_name hname, flagOf?_setting]
  · refine optionsOf_assign b ?_
    rw [Token.ofString_assign hname, flagOf?_setting]

namespace Flags

/-! ## What options leave of the flags before -/

variable (f : Flags) (s : Setting) (os : List (String × String))

theorem has_without : (f.without s).has s = false := by cases s <;> rfl

theorem without_of_not_has (h : f.has s = false) : f.without s = f := by
  cases s with
  | maxDepth => rw [without, ← Option.isNone_iff_eq_none.mp (Option.isSome_eq_false_iff.mp h)]
  | signal => rw [without, ← Option.isNone_iff_eq_none.mp (Option.isSome_eq_false_iff.mp h)]
  | library => rw [without, ← Option.isNone_iff_eq_none.mp (Option.isSome_eq_false_iff.mp h)]

theorem without_set (v : String) : (f.without s).set s v = f.set s v := by
  cases s <;> rfl

theorem without_give_of_ne {n : String} (h : n ≠ s.name) (v : String) :
    (f.without s).give n v = (f.give n v).without s := by
  cases s <;> (simp only [without, give_eq]; simp_all [Setting.name])

/-- A value given later makes the one before go unnoticed. -/
theorem giveAll_without (h : ∃ v, (s.name, v) ∈ os) : (f.without s).giveAll os = f.giveAll os := by
  induction os generalizing f with
  | nil =>
    obtain ⟨v, hv⟩ := h
    cases hv
  | cons o os ih =>
    obtain ⟨n, v⟩ := o
    rw [giveAll_cons, giveAll_cons]
    -- the first option of this name makes the flags the same
    by_cases hn : n = s.name
    · rw [hn, give_setting, give_setting, without_set]
    · rw [without_give_of_ne f s hn]
      apply ih
      obtain ⟨w, hw⟩ := h
      rcases List.mem_cons.mp hw with heq | hw
      · exact absurd (congrArg Prod.fst heq).symm hn
      · exact ⟨w, hw⟩

theorem has_give (n v : String) :
    (f.give n v).has s = if n = s.name then s.accepts v else f.has s := by
  by_cases hn : n = s.name
  · rw [if_pos hn, hn, give_setting, has_set, if_pos rfl]
  · rw [if_neg hn, give_eq]
    cases s <;> exact congrArg Option.isSome (if_neg hn)

/-- Only a setting that is given a value is changed. -/
theorem has_giveAll_of_not_mem {f : Flags} {s : Setting} {os : List (String × String)}
    (h : ∀ v, (s.name, v) ∉ os) : (f.giveAll os).has s = f.has s := by
  have hnone : (os.filter fun o => o.1 = s.name) = [] := by
    refine List.filter_eq_nil_iff.mpr fun o ho hname => ?_
    obtain ⟨n, v⟩ := o
    obtain rfl : n = s.name := of_decide_eq_true hname
    exact h v ho
  have hgiven := @setting_giveAll _ (·.has s) s.name s.accepts (fun f n v => f.has_give s n v) f os
  rwa [hnone] at hgiven

/-- What only one name sets is set by the last value of that name. -/
theorem setting_giveAll_last {α : Type} {part : Flags → α} {name : String} {read : String → α}
    (h : ∀ (f : Flags) (n v : String), part (f.give n v) = if n = name then read v else part f) :
    part (f.giveAll os) = ((lastValue? name os).map read).getD (part f) := by
  have hlast (vs : List String) (x : α) :
      vs.foldl (fun _ v => read v) x = (vs.getLast?.map read).getD x := by
    induction vs generalizing x with
    | nil => rfl
    | cons v vs ih =>
      rw [List.foldl_cons, ih, List.getLast?_cons, Option.map_some, Option.getD_some, Option.getD_map]
  rw [setting_giveAll h, hlast, lastValue?]

/-- A setting is merged unless a value that it has is taken away. -/
theorem setting_giveAll_eq_iff {α : Type} {part : Flags → Option α} {name : String}
    {read : String → Option α} (hempty : part {} = none)
    (h : ∀ (f : Flags) (n v : String), part (f.give n v) = if n = name then read v else part f) :
    part (f.giveAll os) = (part (({} : Flags).giveAll os) <|> part f) ↔
      ∀ v, lastValue? name os = some v → (read v).isSome = true ∨ (part f).isSome = false := by
  rw [setting_giveAll_last f os h, setting_giveAll_last {} os h, hempty]
  cases lastValue? name os with
  | none => simp
  | some v =>
    simp only [Option.map_some, Option.getD_some, Option.some.injEq, forall_eq']
    cases read v <;> cases part f <;> simp

/-- Options have the effect of flags that are merged just if none of them takes a value away. -/
theorem giveAll_eq_union_iff : f.giveAll os = f.union (({} : Flags).giveAll os) ↔
    ∀ (s : Setting) (v : String), lastValue? s.name os = some v →
      s.accepts v = true ∨ f.has s = false := by
  have hswitch {part : Flags → Bool} {name : String} (hempty : part {} = false)
      (h : ∀ (f : Flags) (n v : String), part (f.give n v) = if n = name then true else part f) :
      part (f.giveAll os) = (part f || part (({} : Flags).giveAll os)) := by
    rw [switch_giveAll h f, switch_giveAll h {}, hempty, Bool.false_or]
  have hinteractive := @hswitch (·.interactive) _ rfl fun f n v => by rw [f.give_eq]
  have hsilent := @hswitch (·.silent) _ rfl fun f n v => by rw [f.give_eq]
  have hjson := @hswitch (·.json) _ rfl fun f n v => by rw [f.give_eq]
  have hdepth := @setting_giveAll_eq_iff f os _ (·.maxDepth) _ _ rfl fun f n v => by rw [f.give_eq]
  have hsignal := @setting_giveAll_eq_iff f os _ (·.signal) _ _ rfl fun f n v => by rw [f.give_eq]
  have hlibrary := @setting_giveAll_eq_iff f os _ (·.library) _ some rfl
    fun f n v => by rw [f.give_eq]
  rw [Flags.ext_iff]
  simp only [union]
  rw [and_iff_right hinteractive, and_iff_right hsilent, and_iff_right hjson, hdepth, hsignal,
    hlibrary]
  constructor
  · rintro ⟨hdepth, hsignal, hlibrary⟩ s
    cases s with
    | maxDepth => exact hdepth
    | signal => exact hsignal
    | library => exact hlibrary
  · intro h
    exact ⟨h .maxDepth, h .signal, h .library⟩

theorem ofTokens_append {a : List String} (h : waiting? a = none) (b : List String) :
    ofTokens (a ++ b) = (ofTokens a).giveAll (optionsOf b) := by
  rw [ofTokens, ofTokens, readTokens_eq_giveAll, readTokens_eq_giveAll, optionsOf_append, h,
    giveAll_append, optionsAfter]

/-- A value that an option waits for is the first token that follows. -/
theorem ofTokens_append_of_waiting {a : List String} {s : Setting} (h : waiting? a = some s)
    (t : String) (ts : List String) :
    ofTokens (a ++ t :: ts) = ((ofTokens a).set s t).readTokens ts := by
  rw [ofTokens, ofTokens, readTokens_eq_giveAll, readTokens_eq_giveAll, readTokens_eq_giveAll,
    optionsOf_append, h, optionsAfter, giveAll_append, giveAll_cons, give_setting]

/-- Between tokens of which the first ones leave no option waiting, a value that its option does not
understand takes away the value given before.  So it is as if it were not there just if there is no
such value or another value comes later. -/
theorem ofTokens_malformed {a b : List String} {s : Setting} {v : String}
    (ha : waiting? a = none) (hv : s.accepts v = false) :
    ofTokens (a ++ b) = (ofTokens a).readTokens b ∧
      ∀ option ∈ s.spellings v,
        ofTokens (a ++ option ++ b) = ((ofTokens a).without s).readTokens b ∧
          (ofTokens (a ++ option ++ b) = ofTokens (a ++ b) ↔
            (ofTokens a).has s = false ∨ ∃ w, (s.name, w) ∈ optionsOf b) := by
  have hplain : ofTokens (a ++ b) = (ofTokens a).readTokens b := by
    rw [ofTokens_append ha, readTokens_eq_giveAll]
  refine ⟨hplain, fun option hoption => ?_⟩
  have hgiven : ofTokens (a ++ option ++ b) = ((ofTokens a).without s).readTokens b := by
    rw [List.append_assoc, ofTokens_append ha, optionsOf_spelling hoption, readTokens_eq_giveAll,
      giveAll_cons, give_setting, set_of_not_accepts _ s hv]
  refine ⟨hgiven, ?_⟩
  rw [hgiven, hplain, readTokens_eq_giveAll, readTokens_eq_giveAll]
  constructor
  · intro heq
    by_contra hneither
    obtain ⟨hhas, hlater⟩ := not_or.mp hneither
    have hnone : ∀ w, (s.name, w) ∉ optionsOf b := not_exists.mp hlater
    have hlost := has_giveAll_of_not_mem (f := (ofTokens a).without s) hnone
    rw [heq, has_giveAll_of_not_mem hnone, has_without] at hlost
    exact hhas hlost
  · rintro (hhas | hlater)
    · rw [without_of_not_has _ s hhas]
    · exact giveAll_without _ s _ hlater

/-- A number that does not fit one word, between two that do. -/
theorem ofTokens_malformed_later :
    let a := ["--max-depth", "5", "expand"]
    let b := ["--silent", "--max-depth=7"]
    waiting? a = none ∧ Setting.maxDepth.accepts "18446744073709551616" = false ∧
      ofTokens (a ++ ["--max-depth", "18446744073709551616"] ++ b) = ofTokens (a ++ b) ∧
      ofTokens (a ++ b) = { silent := true, maxDepth := some 7 } := by
  intro a b
  have ha : waiting? a = none := by decide
  have hv : Setting.maxDepth.accepts "18446744073709551616" = false := by decide
  obtain ⟨-, hspelled⟩ := ofTokens_malformed (b := b) ha hv
  obtain ⟨-, hsame⟩ := hspelled _ List.mem_cons_self
  exact ⟨ha, hv, hsame.mpr (.inr ⟨"7", by decide⟩), by decide⟩

/-- A value that is not understood takes away one that is, however it is written down. -/
theorem ofTokens_malformed_erases :
    let a := ["--max-depth", "5"]
    waiting? a = none ∧ Setting.maxDepth.accepts "deep" = false ∧
      ofTokens (a ++ []) = { maxDepth := some 5 } ∧
      ∀ option ∈ [["--max-depth", "deep"], ["--max-depth=deep"]],
        ofTokens (a ++ option ++ []) = {} ∧ ofTokens (a ++ option ++ []) ≠ ofTokens (a ++ []) := by
  decide

end Flags

end Config

end TextTemplate
