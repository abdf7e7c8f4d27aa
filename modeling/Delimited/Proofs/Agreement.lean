import Delimited.Proofs.Doubling
import Delimited.Proofs.RowScan

/-!
# Scanners that go on alike

Two scanners before the same text, with field buffers that grow alike, go on alike: every operation
on both gives the same answer and leaves them before the same text again, or fails on both with the
same error. What else differs between them, the kind of their sources, their journals and the slots
behind their fields, is never seen.
-/

namespace Delimited

/-- The same ending with another name for the failure is the ending of the same error. -/
def ReadError.map {ε ε' : Type} (f : ε → ε') : ReadError ε → ReadError ε'
  | .opening cause => .opening (f cause)
  | .reading cause => .reading (f cause)
  | .buffer error => .buffer error
  | .dialect error => .dialect error

@[simp] theorem ReadError.map_id {ε : Type} (e : ReadError ε) : e.map id = e := by
  cases e <;> rfl

@[simp] theorem Ending.map_id {ε : Type} (ending : Ending ε) : ending.map id = ending := by
  cases ending <;> rfl

/-- Two outcomes agree: the same answer on states that are both kept, or related errors on states
that are both lost. -/
def Agree {ε₁ ε₂ τ τ' α : Type} (error : ε₁ → ε₂ → Prop) (kept lost : τ → τ' → Prop) :
    EStateM.Result ε₁ τ α → EStateM.Result ε₂ τ' α → Prop
  | .ok a t, .ok a' t' => a = a' ∧ kept t t'
  | .error e t, .error e' t' => error e e' ∧ lost t t'
  | _, _ => False

section Agree

variable {ε₁ ε₂ τ τ' α : Type} {error : ε₁ → ε₂ → Prop} {kept lost : τ → τ' → Prop}
  {result' : EStateM.Result ε₂ τ' α}

/-- An answer is met by the same answer. -/
theorem Agree.of_ok {a : α} {t : τ} (h : Agree error kept lost (.ok a t) result') :
    ∃ t', result' = .ok a t' ∧ kept t t' := by
  cases result' with
  | ok a' t' =>
    obtain ⟨rfl, ht⟩ := h
    exact ⟨t', rfl, ht⟩
  | error e' t' => cases h

/-- An error is met by a related error. -/
theorem Agree.of_error {e : ε₁} {t : τ} (h : Agree error kept lost (.error e t) result') :
    ∃ e' t', result' = .error e' t' ∧ error e e' ∧ lost t t' := by
  cases result' with
  | ok a' t' => cases h
  | error e' t' => exact ⟨e', t', rfl, h⟩

end Agree

/-- A byte closes a field only as a delimiter. -/
theorem Phase.delimiter?_of_step_eq_close {d : Dialect} {phase next : Phase} {b : UInt8}
    {delimiter : Delimiter} (h : phase.step d (some b) = (next, .close delimiter)) :
    d.delimiter? b = some delimiter := by
  unfold Phase.step at h
  grind

namespace Buffer

variable {α : Type} {alloc alloc' : Allocator} {b c : Buffer α}

/-- The buffers grow alike under the two allocators for so many more elements: because they are the
same and so are the allocators, or because they have the same elements and nothing is refused. -/
inductive Twins (alloc alloc' : Allocator) (more : Nat) : Buffer α → Buffer α → Prop where
  | same {b : Buffer α} (ha : alloc = alloc') (hb : b.isSound = true) : Twins alloc alloc' more b b
  | granted {b c : Buffer α} {most : Nat} (hg : alloc.GrantsFor most) (hg' : alloc'.GrantsFor most)
      (hb : b.Doubled) (hc : c.Doubled) (hl : b.toList = c.toList)
      (hmost : b.toList.length + more ≤ most + 1) : Twins alloc alloc' more b c

variable {more fewer : Nat}

theorem Twins.toList_eq (h : Twins alloc alloc' more b c) : b.toList = c.toList := by
  cases h with
  | same => rfl
  | granted _ _ _ _ hl => exact hl

theorem Twins.sound (h : Twins alloc alloc' more b c) : b.isSound = true ∧ c.isSound = true := by
  cases h with
  | same _ hb => exact ⟨hb, hb⟩
  | granted _ _ hb hc => exact ⟨hb.sound, hc.sound⟩

/-- Fewer elements are added alike, too. -/
theorem Twins.mono (h : Twins alloc alloc' more b c) (hle : fewer ≤ more) :
    Twins alloc alloc' fewer b c := by
  cases h with
  | same ha hb => exact .same ha hb
  | granted hg hg' hb hc hl hmost => exact .granted hg hg' hb hc hl (by omega)

theorem Twins.clear (h : Twins alloc alloc' more b c) :
    Twins alloc alloc' more b.clear c.clear := by
  cases h with
  | same ha hb => exact .same ha (isSound_clear hb)
  | granted hg hg' hb hc hl hmost =>
    apply Twins.granted hg hg' hb.clear hc.clear
    · rw [toList_clear, toList_clear]
    · rw [toList_clear, List.length_nil]
      omega

/-- An element is added to both, or to neither for the same reason. -/
theorem Twins.push [Element α] (hsize : Element.size α ≤ Element.size (List UInt8))
    (h : Twins alloc alloc' (more + 1) b c) (v : α) :
    Agree Eq (Twins alloc alloc' more) (Twins alloc alloc' more) (push alloc v b)
      (Buffer.push alloc' v c) := by
  cases h with
  | same ha hb =>
    subst ha
    cases hp : Buffer.push alloc v b with
    | ok u t => exact ⟨rfl, .same rfl (push_eq_ok hp hb).1⟩
    | error e t =>
      rw [eq_of_push_eq_error hp]
      exact ⟨rfl, .same rfl hb⟩
  | @granted _ most hg hg' hb hc hl hmost =>
    have hroom : b.toList.length ≤ most := by omega
    have hlength : b.length = c.length := by
      rw [← length_toList hb.sound, ← length_toList hc.sound, hl]
    by_cases hlt : b.toList.length < memoryLimit
    · obtain ⟨t, ht, -, htl⟩ := push_of_grantsFor hg hsize hb.sound hroom hlt v
      obtain ⟨t', ht', -, htl'⟩ := push_of_grantsFor hg' hsize hc.sound (hl ▸ hroom) (hl ▸ hlt) v
      rw [ht, ht']
      refine ⟨rfl, .granted hg hg' (hb.push ht) (hc.push ht') ?_ ?_⟩
      · rw [htl, htl', hl]
      · rw [htl, List.length_append, List.length_singleton]
        omega
    · have hle : memoryLimit ≤ b.length := by
        rw [← length_toList hb.sound]
        exact Nat.le_of_not_lt hlt
      rw [push_of_memoryLimit_le hb hle, push_of_memoryLimit_le hc (hlength ▸ hle)]
      exact ⟨rfl, .granted hg hg' hb hc hl (by omega)⟩

end Buffer

namespace Scanner

variable {σ σ' ε ε' α : Type} [Source σ ε] [Source σ' ε'] {f : ε → ε'} {alloc alloc' : Allocator}
  {d : Dialect} {text : List UInt8} {ending : Ending ε} {s : Scanner σ} {s' : Scanner σ'}

/-- The scanners stand before the same text, up to the name of a failure behind it, and their fields
grow alike for every byte of the text, and one more. -/
def Twins (f : ε → ε') (alloc alloc' : Allocator) (s : Scanner σ) (s' : Scanner σ') : Prop :=
  ∃ (d : Dialect) (text : List UInt8) (ending : Ending ε),
    s.At d text ending ∧ s'.At d text (ending.map f) ∧
      Buffer.Twins alloc alloc' (text.length + 1) s.field s'.field

/-- The outcomes of an operation on both scanners agree. After an error nothing is known of them. -/
def Concur (f : ε → ε') (alloc alloc' : Allocator) :
    EStateM.Result (ReadError ε) (Scanner σ) α →
      EStateM.Result (ReadError ε') (Scanner σ') α → Prop :=
  Agree (fun e e' ↦ e' = e.map f) (Twins f alloc alloc') fun _ _ ↦ True

theorem Twins.refl (alloc : Allocator) (h : s.At d text ending) : Twins id alloc alloc s s :=
  ⟨d, text, ending, h, by rwa [Ending.map_id], .same rfl h.sound⟩

theorem Twins.ahead_eq (h : Twins f alloc alloc' s s') : s'.ahead = s.ahead := by
  obtain ⟨d, text, ending, hat, hat', -⟩ := h
  rw [hat.ahead, hat'.ahead]

theorem Twins.dialect_eq (h : Twins f alloc alloc' s s') : s'.dialect = s.dialect := by
  obtain ⟨d, text, ending, hat, hat', -⟩ := h
  rw [hat.dialect, hat'.dialect]

/-- What becomes of the journals does not move the scanners. -/
theorem Twins.of_eq {t : Scanner σ} {t' : Scanner σ'} (h : Twins f alloc alloc' s s')
    (hd : t.dialect = s.dialect) (hf : t.field = s.field) (ha : t.ahead = s.ahead)
    (hs : t.source = s.source) (hd' : t'.dialect = s'.dialect) (hf' : t'.field = s'.field)
    (ha' : t'.ahead = s'.ahead) (hs' : t'.source = s'.source) : Twins f alloc alloc' t t' := by
  obtain ⟨d, text, ending, hat, hat', hfield⟩ := h
  rw [← hf, ← hf'] at hfield
  exact ⟨d, text, ending, hat.of_eq hd hfield.sound.1 ha hs,
    hat'.of_eq hd' hfield.sound.2 ha' hs', hfield⟩

theorem Twins.clearField (h : Twins f alloc alloc' s s') :
    Twins f alloc alloc' { s with field := s.field.clear }
      { s' with field := s'.field.clear } := by
  obtain ⟨d, text, ending, hat, hat', hfield⟩ := h
  exact ⟨d, text, ending, hat.of_eq rfl hfield.clear.sound.1 rfl rfl,
    hat'.of_eq rfl hfield.clear.sound.2 rfl rfl, hfield.clear⟩

theorem Twins.note (h : Twins f alloc alloc' s s') (event event' : Event) :
    Twins f alloc alloc' (s.note event) (s'.note event') :=
  h.of_eq rfl rfl rfl rfl rfl rfl rfl rfl

theorem Twins.finish (h : Twins f alloc alloc' s s') (phase : Phase) :
    Twins f alloc alloc' (s.finish phase) (s'.finish phase) := by
  unfold Scanner.finish
  split
  · exact h.note _ _
  · exact h

theorem Twins.dropping (h : Twins f alloc alloc' s s') (phase : Phase) (b : UInt8) :
    Twins f alloc alloc' (s.dropping phase b) (s'.dropping phase b) := by
  unfold Scanner.dropping
  split
  · exact h.note _ _
  · exact h

/-- What leaves both scanners before the same text leaves them alike. -/
theorem Leaves.concur {post : α → Scanner σ → Prop} {post' : α → Scanner σ' → Prop}
    {result : EStateM.Result (ReadError ε) (Scanner σ) α}
    {result' : EStateM.Result (ReadError ε') (Scanner σ') α}
    (h : Leaves d text ending post result) (h' : Leaves d text (ending.map f) post' result')
    (hpost : ∀ a a' t t', post a t → post' a' t' →
      a = a' ∧ Buffer.Twins alloc alloc' (text.length + 1) t.field t'.field) :
    Concur f alloc alloc' result result' := by
  cases result with
  | ok a t =>
    obtain ⟨hat, hp⟩ := h
    cases result' with
    | ok a' t' =>
      obtain ⟨hat', hp'⟩ := h'
      obtain ⟨ha, hfield⟩ := hpost a a' t t' hp hp'
      exact ⟨ha, d, text, ending, hat, hat', hfield⟩
    | error e' t' =>
      obtain ⟨-, rfl, cause, hfail, -⟩ := h'
      rw [hat.eq_done] at hfail
      cases hfail
  | error e t =>
    obtain ⟨-, rfl, cause, rfl, rfl⟩ := h
    cases result' with
    | ok a' t' => cases h'.1.eq_done
    | error e' t' =>
      obtain ⟨-, -, cause', hfail, rfl⟩ := h'
      cases hfail
      exact ⟨rfl, trivial⟩

/-- Consuming the first byte of the text goes alike. -/
private theorem concur_consume_cons {b : UInt8} (hat : s.At d (b :: text) ending)
    (hat' : s'.At d (b :: text) (ending.map f))
    (hfield : Buffer.Twins alloc alloc' (text.length + 1) s.field s'.field) :
    Concur f alloc alloc' (consume s) (consume s') := by
  apply (leaves_consume hat).concur (leaves_consume hat')
  rintro _ _ t t' ⟨ht, -⟩ ⟨ht', -⟩
  rw [ht, ht']
  exact ⟨rfl, hfield⟩

/-- Consuming a byte in view goes alike. -/
theorem concur_consume {b : UInt8} (h : Twins f alloc alloc' s s') (hs : s.ahead = some b) :
    Concur f alloc alloc' (consume s) (consume s') := by
  obtain ⟨d, text, ending, hat, hat', hfield⟩ := h
  obtain ⟨behind, rfl⟩ := hat.exists_cons hs
  exact concur_consume_cons hat hat' (hfield.mono (Nat.le_succ _))

/-- Adding a byte in view to the fields goes alike, and so does consuming it then. -/
theorem agree_append {b : UInt8} (h : Twins f alloc alloc' s s') (hs : s.ahead = some b) :
    Agree Eq
      (fun field field' ↦ Concur f alloc alloc' (consume { s with field })
        (consume { s' with field := field' }))
      (fun _ _ ↦ True) (Buffer.push alloc b s.field) (Buffer.push alloc' b s'.field) := by
  obtain ⟨d, text, ending, hat, hat', hfield⟩ := h
  obtain ⟨behind, rfl⟩ := hat.exists_cons hs
  have hpush := hfield.push (by decide) b
  cases hp : Buffer.push alloc b s.field with
  | error e field =>
    rw [hp] at hpush
    obtain ⟨_, field', hp', rfl, -⟩ := hpush.of_error
    rw [hp']
    exact ⟨rfl, trivial⟩
  | ok u field =>
    rw [hp] at hpush
    obtain ⟨field', hp', htwins⟩ := hpush.of_ok
    rw [hp']
    exact ⟨rfl, concur_consume_cons (hat.of_eq rfl htwins.sound.1 rfl rfl)
      (hat'.of_eq rfl htwins.sound.2 rfl rfl) htwins⟩

/-- Turning to sources that give the same goes alike. -/
theorem concur_attach {source : σ} {source' : σ'} (hd : s.dialect = d) (hd' : s'.dialect = d)
    (hfield : Buffer.Twins alloc alloc' (text.length + 1) s.field.clear s'.field.clear)
    (hg : Source.Gives source text ending) (hg' : Source.Gives source' text (ending.map f)) :
    Concur f alloc alloc' (attach source s) (attach source' s') := by
  unfold attach
  have hcleared : Fit { s with source := some source, field := s.field.clear } d :=
    ⟨hd, hfield.sound.1⟩
  have hcleared' : Fit { s' with source := some source', field := s'.field.clear } d :=
    ⟨hd', hfield.sound.2⟩
  apply (leaves_consume_of_gives hcleared rfl hg).concur (leaves_consume_of_gives hcleared' rfl hg')
  rintro _ _ t t' ⟨ht, -⟩ ⟨ht', -⟩
  rw [ht, ht']
  exact ⟨rfl, hfield⟩

/-- The search for a record goes alike. -/
theorem concur_skipBlankLines (h : Twins f alloc alloc' s s') :
    Concur f alloc alloc' (skipBlankLines s) (skipBlankLines s') := by
  obtain ⟨d, text, ending, hat, hat', htwins⟩ := h
  have hle := Grammar.length_recordStart_le d text
  apply (leaves_skipBlankLines hat).concur (leaves_skipBlankLines hat')
  rintro _ _ t t' ⟨hfield, -⟩ ⟨hfield', -⟩
  rw [hfield, hfield']
  exact ⟨rfl, htwins.mono (Nat.succ_le_succ hle)⟩

/-- Closing a field goes alike. -/
theorem concur_closeField {b : UInt8} {delimiter : Delimiter} (h : Twins f alloc alloc' s s')
    (hs : s.ahead = some b) (hb : s.dialect.delimiter? b = some delimiter) :
    Concur f alloc alloc' (closeField delimiter s) (closeField delimiter s') := by
  obtain ⟨d, text, ending, hat, hat', htwins⟩ := h
  rw [hat.dialect] at hb
  obtain ⟨behind, rfl⟩ := hat.exists_cons hs
  have hlt := Grammar.length_closing_lt d b behind
  apply (leaves_closeField hat hb).concur (leaves_closeField hat' hb)
  rintro _ _ t t' ⟨ha, hfield, -⟩ ⟨ha', hfield', -⟩
  rw [ha, ha', hfield, hfield']
  exact ⟨rfl, htwins.mono (Nat.le_succ_of_le hlt)⟩

/-- Scanning on goes alike, byte by byte. -/
theorem concur_readFrom (h : Twins f alloc alloc' s s') (phase : Phase) :
    Concur f alloc alloc' (readFrom alloc phase s) (readFrom alloc' phase s') := by
  fun_induction readFrom alloc phase s generalizing s' with
  | case1 phase s hl =>
    rw [readFrom_of_ahead_eq_none (h.ahead_eq.trans hl)]
    exact ⟨rfl, h.finish phase⟩
  | case2 phase s b hl next hs e field hp =>
    have happend := agree_append h hl
    rw [hp] at happend
    obtain ⟨_, field', hp', rfl, -⟩ := happend.of_error
    rw [readFrom_append_refused (h.ahead_eq.trans hl) (h.dialect_eq ▸ hs) hp']
    exact ⟨rfl, trivial⟩
  | case3 phase s b hl next hs field hp t ha ih =>
    have happend := agree_append h hl
    rw [hp] at happend
    obtain ⟨field', hp', hc⟩ := happend.of_ok
    rw [ha] at hc
    obtain ⟨t', ha', ht⟩ := hc.of_ok
    rw [readFrom_append (h.ahead_eq.trans hl) (h.dialect_eq ▸ hs) hp' ha']
    exact ih ht
  | case4 phase s b hl next hs field hp e t ha =>
    have happend := agree_append h hl
    rw [hp] at happend
    obtain ⟨field', hp', hc⟩ := happend.of_ok
    rw [ha] at hc
    obtain ⟨e', t', ha', he, -⟩ := hc.of_error
    rw [readFrom_append_error (h.ahead_eq.trans hl) (h.dialect_eq ▸ hs) hp' ha']
    exact ⟨he, trivial⟩
  | case5 phase s b hl next hs t ha ih =>
    have hc := concur_consume (h.dropping phase b) ((ahead_dropping phase b s).trans hl)
    rw [ha] at hc
    obtain ⟨t', ha', ht⟩ := hc.of_ok
    rw [readFrom_drop (h.ahead_eq.trans hl) (h.dialect_eq ▸ hs) ha']
    exact ih ht
  | case6 phase s b hl next hs e t ha =>
    have hc := concur_consume (h.dropping phase b) ((ahead_dropping phase b s).trans hl)
    rw [ha] at hc
    obtain ⟨e', t', ha', he, -⟩ := hc.of_error
    rw [readFrom_drop_error (h.ahead_eq.trans hl) (h.dialect_eq ▸ hs) ha']
    exact ⟨he, trivial⟩
  | case7 phase s b hl next hs ih =>
    rw [readFrom_stay (h.ahead_eq.trans hl) (h.dialect_eq ▸ hs)]
    exact ih h
  | case8 phase s b hl next delimiter hs =>
    rw [readFrom_close (h.ahead_eq.trans hl) (h.dialect_eq ▸ hs)]
    exact concur_closeField h hl (Phase.delimiter?_of_step_eq_close hs)
  | case9 phase s b hl next hs =>
    rw [readFrom_finish (h.ahead_eq.trans hl) (h.dialect_eq ▸ hs)]
    exact ⟨rfl, h.finish phase⟩

/-- A scan goes alike. -/
theorem concur_readField (h : Twins f alloc alloc' s s') :
    Concur f alloc alloc' (readField alloc s) (readField alloc' s') :=
  concur_readFrom h.clearField .fieldStart

variable {β β' : Type} {take : List UInt8 → β → EStateM.Result GrowthError β Unit}
  {take' : List UInt8 → β' → EStateM.Result GrowthError β' Unit}
  {related : Nat → β → β' → Prop} {more : Nat} {taken : β} {taken' : β'}

/-- What takes a field from either scanner takes it alike, and has room for one field less then. -/
def TakeAlike (alloc alloc' : Allocator) (related : Nat → β → β' → Prop)
    (take : List UInt8 → β → EStateM.Result GrowthError β Unit)
    (take' : List UInt8 → β' → EStateM.Result GrowthError β' Unit) : Prop :=
  ∀ ⦃room more : Nat⦄ ⦃field field' : Buffer UInt8⦄ ⦃taken : β⦄ ⦃taken' : β'⦄,
    Buffer.Twins alloc alloc' room field field' → related (more + 1) taken taken' →
    Agree Eq (related more) (related more) (take field.toList taken)
      (take' field'.toList taken')

/-- The field of a scan is handed over alike. -/
private theorem agree_take {boundary : Boundary} {t : Scanner σ}
    (htake : TakeAlike alloc alloc' related take take') (h : Twins f alloc alloc' s s')
    (hr : related (more + 1) taken taken') (hf : readField alloc s = .ok boundary t) :
    ∃ t', readField alloc' s' = .ok boundary t' ∧ Twins f alloc alloc' t t' ∧
      Agree Eq (related more) (related more) (take t.field.toList taken)
        (take' t'.field.toList taken') := by
  have hfield := concur_readField h
  rw [hf] at hfield
  obtain ⟨t', hf', htwins⟩ := hfield.of_ok
  obtain ⟨_, _, _, -, -, hbuffers⟩ := id htwins
  exact ⟨t', hf', htwins, htake hbuffers hr⟩

/-- Reading a row goes alike, where both hand its fields over to what takes them alike and has room
for as many fields as the text can have. -/
theorem agree_readRow (htake : TakeAlike alloc alloc' related take take')
    (h : Twins f alloc alloc' s s') (hat : s.At d text ending) (hlt : text.length < more)
    (hr : related more taken taken') (fields : Nat) :
    Agree (fun e e' ↦ e' = e.map f)
      (fun t t' ↦ Twins f alloc alloc' t.1 t'.1 ∧ ∃ rest, related rest t.2 t'.2)
      (fun t t' ↦ ∃ rest, related rest t.2 t'.2)
      (readRow alloc take fields s taken) (readRow alloc' take' fields s' taken') := by
  obtain ⟨more, rfl⟩ := Nat.exists_eq_succ_of_ne_zero (Nat.ne_zero_of_lt hlt)
  fun_induction readRow alloc take fields s taken generalizing s' taken' text more with
  | case1 fields s taken e t hf =>
    have hfield := concur_readField h
    rw [hf] at hfield
    obtain ⟨e', t', hf', he, -⟩ := hfield.of_error
    rw [readRow_of_error hf']
    exact ⟨he, _, hr⟩
  | case2 fields s taken t hf e lost ht =>
    obtain ⟨t', hf', -, htaken⟩ := agree_take htake h hr hf
    rw [ht] at htaken
    obtain ⟨_, lost', ht', rfl, hlost⟩ := htaken.of_error
    rw [readRow_of_refusal hf' ht']
    exact ⟨rfl, _, hlost⟩
  | case3 fields s taken t hf next ht =>
    obtain ⟨t', hf', htwins, htaken⟩ := agree_take htake h hr hf
    rw [ht] at htaken
    obtain ⟨next', ht', hnext⟩ := htaken.of_ok
    rw [readRow_of_record hf' ht']
    exact ⟨rfl, htwins, _, hnext⟩
  | case4 fields s taken t hf e lost ht =>
    obtain ⟨t', hf', -, htaken⟩ := agree_take htake h hr hf
    rw [ht] at htaken
    obtain ⟨_, lost', ht', rfl, hlost⟩ := htaken.of_error
    rw [readRow_of_refusal hf' ht']
    exact ⟨rfl, _, hlost⟩
  | case5 fields s taken t hf next ht ih =>
    obtain ⟨t', hf', htwins, htaken⟩ := agree_take htake h hr hf
    rw [ht] at htaken
    obtain ⟨next', ht', hnext⟩ := htaken.of_ok
    rw [readRow_of_field hf' ht']
    obtain ⟨hbehind, hb, -⟩ := of_readField_eq_ok hat hf
    have hless := Grammar.length_field_rest_lt d (Grammar.ne_nil_of_boundary_field hb.symm)
    obtain ⟨more, rfl⟩ := Nat.exists_eq_succ_of_ne_zero (n := more) (by omega)
    exact ih htwins hbehind more (by omega) hnext

end Scanner
end Delimited
