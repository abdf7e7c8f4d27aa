import Delimited.Dialect.Config
import Mathlib.Data.List.Perm.Basic

/-!
# Dialects come back from their configuration

The object that is written of a dialect configures that dialect. More than that is read: the members
of an object may come in any order, and those that name no setting may stand between them, but a
setting that is given twice makes no configuration. The number that is written of a byte is read
back as any other number is, digit by digit.
-/

namespace Delimited

namespace Json

/-- A token stands before the tokens of what is behind it. -/
theorem tokens?_of_next {c : Char} {rest after : List Char} {token : Token}
    (hb : isBlank c = false) (hn : next? c rest = some (token, after)) :
    tokens? (c :: rest) = (tokens? after).map (token :: ·) := by
  rw [tokens?, hb]
  split
  · next h => cases h
  · split
    · next h =>
      rw [hn] at h
      cases h
    · next h =>
      rw [hn] at h
      cases h
      rfl

section Strings

/-- Within a string literal the character stands for itself. -/
def isPlain (c : Char) : Bool := c ≠ '\x22' && c ≠ '\\' && !(c < ' ')

/-- Plain characters are the parts of their literal. -/
theorem stringParts?_append {s : List Char} (hs : s.all isPlain = true) (rest : List Char) :
    stringParts? (s ++ '\x22' :: rest) = some (s.map .char, rest) := by
  induction s with
  | nil => rfl
  | cons c s ih =>
    rw [List.all_cons, Bool.and_eq_true] at hs
    obtain ⟨hc, hs⟩ := hs
    simp only [isPlain, ne_eq, Bool.and_eq_true, decide_eq_true_eq, Bool.not_eq_eq_eq_not,
      Bool.not_true, decide_eq_false_iff_not] at hc
    obtain ⟨⟨hquote, hescape⟩, hcontrol⟩ := hc
    rw [List.cons_append, stringParts?, if_neg hcontrol, ih hs]
    · rfl
    · exact hquote
    · exact fun _ _ _ _ _ h _ ↦ hescape h
    · exact fun _ _ h _ ↦ hescape h

theorem chars?_map_char (s : List Char) : chars? (s.map .char) = some s := by
  induction s with
  | nil => rfl
  | cons c s ih =>
    rw [List.map_cons, chars?, ih]
    rfl

/-- A literal of plain characters is the token of its text. -/
theorem tokens?_string {text : String} (h : text.toList.all isPlain = true) (rest : List Char) :
    tokens? ('\x22' :: (text.toList ++ '\x22' :: rest)) =
      (tokens? rest).map (.string (some text) :: ·) := by
  apply tokens?_of_next rfl
  show (stringParts? _).map _ = _
  rw [stringParts?_append h, Option.map_some, chars?_map_char, Option.map_some,
    String.ofList_toList]

/-- A value in an object, behind its key in quotation marks and a colon. -/
def memberText (key : String) (value : List Char) : List Char :=
  '\x22' :: (key.toList ++ '\x22' :: ':' :: value)

/-- The tokens of a value in an object come behind its key and a colon. -/
theorem tokens?_memberText {key : String} (h : key.toList.all isPlain = true) (value : List Char) :
    tokens? (memberText key value) =
      (tokens? value).map fun tokens ↦ .string (some key) :: .colon :: tokens := by
  have hcolon : tokens? (':' :: value) = (tokens? value).map (.colon :: ·) :=
    tokens?_of_next rfl rfl
  rw [memberText, tokens?_string h, hcolon, Option.map_map]
  rfl

end Strings

section Numbers

variable {n : Nat} {rest : List Char}

/-- Only zero is written with a zero in front. -/
theorem head?_toDigits (h : 0 < n) : (Nat.toDigits 10 n).head? ≠ some '0' := by
  induction n using Nat.strongRecOn with
  | ind n ih =>
    rw [Nat.toDigits_eq_if (by decide)]
    split
    · next hlt =>
      have hdigit : ∀ m < 10, 0 < m → [m.digitChar].head? ≠ some '0' := by decide
      exact hdigit n hlt h
    · next hle =>
      rw [List.head?_append_of_ne_nil _ Nat.toDigits_ne_nil]
      exact ih (n / 10) (by omega) (by omega)

theorem decimal_toDigits (n : Nat) : decimal (Nat.toDigits 10 n) = n := by
  have hread : Nat.ofDigitChars 10 (Nat.toDigits 10 n) 0 = n := Nat.ofDigitChars_ten_toDigits
  rw [Nat.ofDigitChars_eq_foldl] at hread
  simpa only [decimal, Nat.mul_comm] using hread

theorem isDigit_of_mem_toDigits {c : Char} (h : c ∈ Nat.toDigits 10 n) : c.isDigit = true :=
  Nat.isDigit_of_mem_toDigits (by decide) (by decide) h

/-- No digit, fraction or exponent follows. -/
def EndsNumber (rest : List Char) : Prop :=
  ∀ c ∈ rest.head?, c.isDigit = false ∧ c ≠ '.' ∧ c ≠ 'e' ∧ c ≠ 'E'

/-- The digits of a number are read to their end. -/
theorem integer?_toDigits (hrest : EndsNumber rest) (n : Nat) :
    integer? (Nat.toDigits 10 n ++ rest) = some (Nat.toDigits 10 n, rest) := by
  by_cases hn : n = 0
  · subst hn
    rfl
  · have hhead := head?_toDigits (Nat.pos_of_ne_zero hn)
    have hdigits : ∀ c ∈ Nat.toDigits 10 n, c.isDigit = true := fun c ↦ isDigit_of_mem_toDigits
    cases hcs : Nat.toDigits 10 n with
    | nil => exact absurd hcs Nat.toDigits_ne_nil
    | cons c cs =>
      rw [hcs] at hhead hdigits
      obtain ⟨hc, hcs⟩ := List.forall_mem_cons.mp hdigits
      have hstop : rest.takeWhile Char.isDigit = [] ∧ rest.dropWhile Char.isDigit = rest := by
        cases rest with
        | nil => exact ⟨rfl, rfl⟩
        | cons b rest =>
          have hb := (hrest b rfl).1
          simp [hb]
      rw [List.cons_append, integer?, if_neg (fun hzero ↦ hhead (congrArg some hzero)), if_pos hc,
        List.takeWhile_append_of_pos hcs, List.dropWhile_append_of_pos hcs, hstop.1, hstop.2,
        List.append_nil]

theorem dropFraction?_of_endsNumber (hrest : EndsNumber rest) : dropFraction? rest = some rest := by
  unfold dropFraction?
  split
  · exact absurd rfl (hrest '.' rfl).2.1
  · rfl

theorem dropExponent?_of_endsNumber (hrest : EndsNumber rest) : dropExponent? rest = some rest := by
  cases rest with
  | nil => rfl
  | cons c rest =>
    obtain ⟨-, -, hlower, hupper⟩ := hrest c rfl
    exact if_neg (not_or.mpr ⟨hlower, hupper⟩)

theorem unsigned?_toDigits (hrest : EndsNumber rest) (n : Nat) :
    unsigned? (Nat.toDigits 10 n ++ rest) = some (some n, rest) := by
  simp [unsigned?, integer?_toDigits hrest, dropFraction?_of_endsNumber hrest,
    dropExponent?_of_endsNumber hrest, decimal_toDigits]

/-- A digit begins a number. -/
theorem next?_of_isDigit {c : Char} (h : c.isDigit = true) (rest : List Char) :
    next? c rest = (unsigned? (c :: rest)).map fun lexed ↦ (.number lexed.1, lexed.2) := by
  unfold next?
  split
  case h_12 => rfl
  all_goals cases h

/-- The digits of a number are its token. -/
theorem tokens?_number (hrest : EndsNumber rest) (n : Nat) :
    tokens? (Nat.toDigits 10 n ++ rest) = (tokens? rest).map (.number (some n) :: ·) := by
  have hread := unsigned?_toDigits hrest n
  have hdigits : ∀ c ∈ Nat.toDigits 10 n, c.isDigit = true := fun c ↦ isDigit_of_mem_toDigits
  cases hcs : Nat.toDigits 10 n with
  | nil => exact absurd hcs Nat.toDigits_ne_nil
  | cons c cs =>
    rw [hcs] at hread hdigits
    have hc := hdigits c List.mem_cons_self
    have hblank : isBlank c = false := by
      unfold isBlank
      rw [Bool.eq_false_iff]
      intro h
      simp only [Bool.or_eq_true, decide_eq_true_eq] at h
      obtain ((rfl | rfl) | rfl) | rfl := h <;> cases hc
    apply tokens?_of_next hblank
    show next? c (cs ++ rest) = _
    rw [next?_of_isDigit hc, ← List.cons_append, hread, Option.map_some]

end Numbers

end Json

namespace Dialect

namespace Setting

/-- What a dialect has for the setting. -/
def value (d : Dialect) : Setting → Json.Value
  | .separator => .number (some d.separator.toNat)
  | .quote => .number (some d.quote.toNat)
  | .skipBlankLines => .bool d.skipBlankLines

@[simp] theorem ofKey?_key (setting : Setting) : ofKey? (some setting.key) = some setting := by
  cases setting <;> decide

@[simp] theorem byte?_toNat (b : UInt8) : byte? (.number (some b.toNat)) = some b := by
  rw [byte?, if_pos (UInt8.toNat_lt b), UInt8.ofNat_toNat]

/-- Different settings are changed independently. -/
theorem assign?_comm {first second : Setting} (hne : first ≠ second) (d : Dialect)
    (one other : Json.Value) :
    (first.assign? d one).bind (fun d ↦ second.assign? d other) =
      (second.assign? d other).bind fun d ↦ first.assign? d one := by
  cases first <;> cases second
  case separator.separator | quote.quote | skipBlankLines.skipBlankLines => exact absurd rfl hne
  case separator.quote | quote.separator =>
    simp only [assign?]
    cases byte? one <;> cases byte? other <;> rfl
  case separator.skipBlankLines | quote.skipBlankLines =>
    simp only [assign?]
    cases byte? one <;> cases other <;> rfl
  case skipBlankLines.separator | skipBlankLines.quote =>
    simp only [assign?]
    cases byte? other <;> cases one <;> rfl

end Setting

section Members

variable {d d' : Dialect} {missing : List Setting} {key : String} {value : Json.Value}
  {setting : Setting} {members members' : List (Option String × Json.Value)}

/-- A member that names a setting changes it, if it is missing. -/
theorem ofMembers?_of_setting (h : Setting.ofKey? (some key) = some setting) :
    ofMembers? d missing ((some key, value) :: members) =
      if setting ∈ missing then
        (setting.assign? d value).bind fun d ↦ ofMembers? d (missing.erase setting) members
      else none := by
  rw [ofMembers?, h]

/-- A member without a proper key makes no configuration. -/
theorem ofMembers?_of_mem_none (h : (none, value) ∈ members) :
    ofMembers? d missing members = none := by
  induction members generalizing d missing with
  | nil => cases h
  | cons member members ih =>
    obtain ⟨_ | key, other⟩ := member
    · rfl
    · have hrest : (none, value) ∈ members := by simpa using h
      rw [ofMembers?]
      split
      · exact ih hrest
      · split
        · rw [funext fun d ↦ ih hrest, Option.bind_fun_none]
        · rfl

/-- Members that name no setting say nothing. -/
theorem ofMembers?_append_cons (h : Setting.ofKey? (some key) = none)
    (front back : List (Option String × Json.Value)) :
    ofMembers? d missing (front ++ (some key, value) :: back) =
      ofMembers? d missing (front ++ back) := by
  induction front generalizing d missing with
  | nil => rw [List.nil_append, List.nil_append, ofMembers?, h]
  | cons member front ih =>
    obtain ⟨_ | key, other⟩ := member
    · rfl
    · rw [List.cons_append, List.cons_append, ofMembers?, ofMembers?]
      simp only [ih]

/-- Two members may change places. -/
theorem ofMembers?_swap (hnodup : missing.Nodup) (first second : Option String × Json.Value) :
    ofMembers? d missing (first :: second :: members) =
      ofMembers? d missing (second :: first :: members) := by
  obtain ⟨_ | one, value⟩ := first
  · have hfirst : (none, value) ∈ (none, value) :: second :: members := List.mem_cons_self
    have hsecond : (none, value) ∈ second :: (none, value) :: members := by simp
    rw [ofMembers?_of_mem_none hfirst, ofMembers?_of_mem_none hsecond]
  obtain ⟨_ | other, value'⟩ := second
  · have hfirst : (none, value') ∈ (some one, value) :: (none, value') :: members := by simp
    have hsecond : (none, value') ∈ (none, value') :: (some one, value) :: members :=
      List.mem_cons_self
    rw [ofMembers?_of_mem_none hfirst, ofMembers?_of_mem_none hsecond]
  cases hone : Setting.ofKey? (some one) with
  | none =>
    exact (ofMembers?_append_cons hone [] _).trans (ofMembers?_append_cons hone [_] members).symm
  | some changed =>
    cases hother : Setting.ofKey? (some other) with
    | none =>
      exact (ofMembers?_append_cons hother [_] members).trans
        (ofMembers?_append_cons hother [] _).symm
    | some changed' =>
      simp only [ofMembers?_of_setting hone, ofMembers?_of_setting hother]
      by_cases hne : changed = changed'
      · subst hne
        simp [hnodup.not_mem_erase]
      · simp only [List.mem_erase_of_ne hne, List.mem_erase_of_ne (Ne.symm hne)]
        by_cases hfirst : changed ∈ missing
        · by_cases hsecond : changed' ∈ missing
          · simp only [if_pos hfirst, if_pos hsecond]
            rw [← Option.bind_assoc, ← Option.bind_assoc, Setting.assign?_comm hne,
              List.erase_comm]
          · simp [hsecond]
        · simp [hfirst]

/-- The order of the members makes no difference. -/
theorem ofMembers?_perm (hnodup : missing.Nodup) (h : members.Perm members') :
    ofMembers? d missing members = ofMembers? d missing members' := by
  induction h generalizing d missing with
  | nil => rfl
  | cons member h ih =>
    obtain ⟨_ | key, value⟩ := member
    · rfl
    · rw [ofMembers?, ofMembers?, ih hnodup]
      simp only [fun setting d ↦ ih (d := d) (hnodup.erase setting)]
  | swap first second members => exact ofMembers?_swap hnodup second first
  | trans _ _ ih ih' => exact (ih hnodup).trans (ih' hnodup)

/-- No setting is given twice, and none that is not missing. -/
theorem subperm_of_ofMembers?_eq_some (h : ofMembers? d missing members = some d') :
    (members.filterMap fun member ↦ Setting.ofKey? member.1).Subperm missing := by
  induction members generalizing d missing with
  | nil => exact List.nil_subperm
  | cons member members ih =>
    obtain ⟨_ | key, value⟩ := member
    · cases h
    · cases hkey : Setting.ofKey? (some key) with
      | none =>
        simp only [List.filterMap_cons, hkey]
        rw [ofMembers?, hkey] at h
        exact ih h
      | some setting =>
        simp only [List.filterMap_cons, hkey]
        rw [ofMembers?_of_setting hkey] at h
        split at h
        · next hmissing =>
          obtain ⟨changed, -, hrest⟩ := Option.bind_eq_some_iff.mp h
          have hcons := (List.subperm_cons setting).mpr (ih hrest)
          exact hcons.trans (List.perm_cons_erase hmissing).symm.subperm
        · cases h

end Members

/-- The members that are written of a dialect. -/
def members (d : Dialect) : List (Option String × Json.Value) :=
  Setting.all.map fun setting ↦ (some setting.key, setting.value d)

theorem ofMembers?_members (d d' : Dialect) : ofMembers? d' Setting.all d.members = some d := by
  simp [members, Setting.all, ofMembers?_of_setting, Setting.assign?, Setting.value, ofMembers?]

/-- An object that gives every setting configures the dialect, in whatever order it gives them, and
whatever else it gives. -/
theorem ofValue?_object {d : Dialect} {given others : List (Option String × Json.Value)}
    (hothers : ∀ member ∈ others, ∃ key, member.1 = some key ∧ Setting.ofKey? (some key) = none)
    (h : given.Perm (d.members ++ others)) : ofValue? (.object given) = some d := by
  have hmembers : ofMembers? {} Setting.all (d.members ++ others) = some d := by
    clear h
    induction others with
    | nil => rw [List.append_nil, ofMembers?_members]
    | cons member others ih =>
      obtain ⟨hmember, hrest⟩ := List.forall_mem_cons.mp hothers
      obtain ⟨key, hkey, hunknown⟩ := hmember
      obtain ⟨_, value⟩ := member
      subst hkey
      rw [ofMembers?_append_cons hunknown, ih hrest]
  show ofMembers? {} Setting.all given = some d
  rw [ofMembers?_perm (by decide) h, hmembers]

/-- An array of all the values in their order configures the dialect. -/
theorem ofValue?_array (d : Dialect) :
    ofValue? (.array (Setting.all.map fun setting ↦ setting.value d)) = some d := by
  simp [ofValue?, Setting.all, ofItems?, Setting.assign?, Setting.value]

/-- The settings that an object gives are all different, if it configures a dialect. -/
theorem nodup_of_ofValue?_eq_some {d : Dialect} {given : List (Option String × Json.Value)}
    (h : ofValue? (.object given) = some d) :
    (given.filterMap fun member ↦ Setting.ofKey? member.1).Nodup := by
  obtain ⟨settings, hperm, hsub⟩ := subperm_of_ofMembers?_eq_some h
  have hall : Setting.all.Nodup := by decide
  exact hperm.nodup_iff.mp (hall.sublist hsub)

/-- The text that is written of a dialect, member by member. -/
theorem toList_toJson (d : Dialect) :
    d.toJson.toList =
      '\x7b' :: Json.memberText "separator" (Nat.toDigits 10 d.separator.toNat ++ ',' ::
        Json.memberText "quote" (Nat.toDigits 10 d.quote.toNat ++ ',' ::
          Json.memberText "skip_blank_lines"
            ((if d.skipBlankLines then "true" else "false").toList ++ ['\x7d']))) := by
  have hdigits (n : Nat) : (toString n).toList = Nat.toDigits 10 n := by
    rw [Nat.toString_eq_ofList_toDigits, String.toList_ofList]
  unfold toJson
  simp only [String.toList_append, List.append_assoc, hdigits]
  generalize Nat.toDigits 10 d.separator.toNat = separator
  generalize Nat.toDigits 10 d.quote.toNat = quote
  rfl

/-- The tokens of what is written of a dialect. -/
theorem tokens?_toJson (d : Dialect) :
    Json.tokens? d.toJson.toList = some
      [.beginObject, .string (some "separator"), .colon, .number (some d.separator.toNat), .comma,
        .string (some "quote"), .colon, .number (some d.quote.toNat), .comma,
        .string (some "skip_blank_lines"), .colon, .bool d.skipBlankLines, .endObject] := by
  have hcomma (rest : List Char) : Json.tokens? (',' :: rest) =
      (Json.tokens? rest).map (.comma :: ·) := Json.tokens?_of_next rfl rfl
  have hends (rest : List Char) : Json.EndsNumber (',' :: rest) := by
    rintro c ⟨⟩
    decide
  have hend : Json.tokens? ['\x7d'] = some [.endObject] := by
    rw [Json.tokens?_of_next rfl rfl, Json.tokens?]
    rfl
  have hflag : Json.tokens? ((if d.skipBlankLines then "true" else "false").toList ++ ['\x7d']) =
      some [.bool d.skipBlankLines, .endObject] := by
    cases d.skipBlankLines with
    | false =>
      show Json.tokens? ['f', 'a', 'l', 's', 'e', '\x7d'] = _
      rw [Json.tokens?_of_next rfl rfl, hend]
      rfl
    | true =>
      show Json.tokens? ['t', 'r', 'u', 'e', '\x7d'] = _
      rw [Json.tokens?_of_next rfl rfl, hend]
      rfl
  rw [toList_toJson, Json.tokens?_of_next rfl rfl, Json.tokens?_memberText (by decide),
    Json.tokens?_number (hends _), hcomma, Json.tokens?_memberText (by decide),
    Json.tokens?_number (hends _), hcomma, Json.tokens?_memberText (by decide), hflag]
  rfl

/-- What is written of a dialect is an object with its members. -/
theorem parse?_toJson (d : Dialect) : Json.parse? d.toJson = some (.object d.members) := by
  rw [Json.parse?, tokens?_toJson]
  rfl

/-- A dialect comes back from what is written of it. -/
theorem ofJson?_toJson (d : Dialect) : ofJson? d.toJson = some d := by
  rw [ofJson?, parse?_toJson]
  exact ofMembers?_members d {}

/-- Different dialects are written differently. -/
theorem toJson_injective : Function.Injective toJson := by
  intro d d' h
  have hsame : ofJson? d.toJson = ofJson? d'.toJson := congrArg ofJson? h
  rw [ofJson?_toJson, ofJson?_toJson] at hsame
  exact Option.some.inj hsame

end Dialect
end Delimited
