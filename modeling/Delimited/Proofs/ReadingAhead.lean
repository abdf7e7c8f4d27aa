import Delimited.Proofs.FieldScan
import Delimited.Proofs.History
import Delimited.Scan.History
import Delimited.Source.Recorded

/-!
# Reading one byte ahead

A scanner has read the byte behind those that it has consumed, and no other. When its source stops
the scanner is at the end, whatever the source would go on with: it consumes the last byte, and
reads no more until it is turned to another source.
-/

namespace Delimited

variable {σ ε : Type} [Source σ ε]

/-- The answer to the read that is made for the front of a text. Behind the text the source
stops. -/
def Answer.front {ε : Type} (ending : Ending ε) : List UInt8 → Answer ε
  | [] => .stop ending
  | b :: _ => .byte b

theorem Answer.byte?_front {ε : Type} (ending : Ending ε) (text : List UInt8) :
    (front ending text).byte? = text.head? := by
  cases text with
  | nil => rfl
  | cons b text => rfl

/-- Answers that are one ahead of what is consumed are the first that the source gives. -/
theorem Answer.append_front_prefix {ε : Type} (ending : Ending ε) (consumed rest : List UInt8) :
    consumed.map .byte ++ [front ending rest] <+:
      (consumed ++ rest).map .byte ++ [.stop ending] := by
  rw [List.map_append, List.append_assoc]
  apply (List.prefix_append_right_inj _).mpr
  cases rest with
  | nil => exact List.prefix_rfl
  | cons b behind => exact ⟨behind.map .byte ++ [.stop ending], rfl⟩

/-- Answers that are one ahead have a stop among them only at the end of the text. -/
theorem Answer.exists_stop_mem_iff {ε : Type} (ending : Ending ε) (consumed rest : List UInt8) :
    (∃ stopped, stop stopped ∈ consumed.map .byte ++ [front ending rest]) ↔ rest = [] := by
  constructor
  · rintro ⟨stopped, hmem⟩
    rcases List.mem_append.mp hmem with hbyte | hfront
    · obtain ⟨b, -, hb⟩ := List.mem_map.mp hbyte
      cases hb
    · cases rest with
      | nil => rfl
      | cons b behind => cases List.mem_singleton.mp hfront
  · rintro rfl
    exact ⟨ending, List.mem_append_right _ (List.mem_singleton.mpr rfl)⟩

/-- What a source gives is one text, with one ending. -/
theorem Source.Gives.unique {source : σ} {text text' : List UInt8} {ending ending' : Ending ε}
    (h : Source.Gives source text ending) (h' : Source.Gives source text' ending') :
    text = text' ∧ ending = ending' := by
  obtain ⟨t, ht⟩ := h
  obtain ⟨t', ht'⟩ := h'
  rw [ht] at ht'
  cases ht'
  exact ⟨rfl, rfl⟩

namespace Recorded

theorem read_eq {source t : σ} {answer : Answer ε} (h : Source.read source = (answer, t))
    (answers : List (Answer ε)) :
    Source.read (Recorded.mk source answers) = (answer, ⟨t, answers ++ [answer]⟩) := by
  show Recorded.read _ = _
  rw [Recorded.read]
  dsimp only
  rw [h]

/-- A source gives the same whether it is recorded or not. -/
theorem gives {source : σ} {text : List UInt8} {ending : Ending ε}
    (h : Source.Gives source text ending) (answers : List (Answer ε)) :
    Source.Gives (Recorded.mk source answers) text ending := by
  induction text generalizing source answers with
  | nil =>
    obtain ⟨t, hr⟩ := Source.read_of_gives_nil h
    exact ⟨_, Source.drain_of_stop (read_eq hr answers)⟩
  | cons b text ih =>
    obtain ⟨t, hr, hg⟩ := Source.read_of_gives_cons h
    obtain ⟨u, hu⟩ := ih hg (answers ++ [.byte b])
    refine ⟨u, ?_⟩
    rw [Source.drain_of_byte (read_eq hr answers), hu]

end Recorded

namespace Scanner

/-- The scanner has consumed the first bytes of a text. The rest is before it, and one read has been
made for the front of the rest. -/
structure OneAhead (s : Scanner (Recorded σ ε)) (ending : Ending ε) (consumed rest : List UInt8) :
    Prop where
  ahead : s.ahead = rest.head?
  source : ∃ source, s.source = some ⟨source, consumed.map .byte ++ [.front ending rest]⟩ ∧
    (rest ≠ [] → Source.Gives source rest.tail ending)

/-- Where a scan may fail: at the end after a failed read, before a byte after a refusal of
memory. -/
def StopsAt : ReadError ε → Scanner σ → Prop
  | .reading _, t => t.ahead = none
  | .buffer _, t => t.ahead ≠ none
  | .opening _, _ => False
  | .dialect _, _ => False

/-- What a request leaves of the text before a scanner. The search for a record takes the blank
lines, and a scan takes a field with its delimiter. One that is refused memory does not get so
far. -/
inductive Takes (d : Dialect) (s : Scanner σ) : Request → List UInt8 → List UInt8 → Prop where
  | seek (text : List UInt8) : Takes d s .seek text (Grammar.recordStart d text)
  | scan {alloc : Allocator} (text : List UInt8) (h : ¬ Refused (readField alloc s)) :
    Takes d s (.scan alloc) text (Grammar.field d text).rest
  | refused {alloc : Allocator} {text rest : List UInt8} (h : Refused (readField alloc s))
    (hsuffix : rest <:+ text) (hne : rest ≠ []) : Takes d s (.scan alloc) text rest

/-- What requests leave of the text before a scanner, one after the other. -/
inductive TakesAll (d : Dialect) : Scanner σ → List Request → List UInt8 → List UInt8 → Prop where
  | nil (s : Scanner σ) (text : List UInt8) : TakesAll d s [] text text
  | cons {s : Scanner σ} {request : Request} {requests : List Request}
    {text between rest : List UInt8} (h : Takes d s request text between)
    (hall : TakesAll d (s.serve request) requests between rest) :
    TakesAll d s (request :: requests) text rest

section AtEnd

variable {s : Scanner σ}

/-- No request leads away from the end of the stream, or to another read. -/
theorem serveAll_of_ahead_eq_none (h : s.ahead = none) (requests : List Request) :
    (s.serveAll requests).ahead = none ∧ (s.serveAll requests).source = s.source := by
  induction requests generalizing s with
  | nil => exact ⟨h, rfl⟩
  | cons request requests ih =>
    rw [serveAll_cons]
    cases request with
    | seek =>
      rw [serve, skipBlankLines_of_ahead_eq_none h]
      exact ih h
    | scan alloc =>
      rw [serve, readField_of_ahead_eq_none alloc h]
      exact ih (s := { s with field := s.field.clear }) h

end AtEnd

/-- What holds however an operation ends holds after it. -/
theorem after_of_always {τ α : Type} {holds : τ → Prop} {result : EStateM.Result (ReadError ε) τ α}
    (h : Always holds result) : holds (after result) := by
  cases result with
  | ok a t => exact h
  | error e t => exact h

/-- What holds wherever an operation ends holds after it. -/
theorem after_of_ends {τ α : Type} {holds : τ → Prop} {failed : ReadError ε → τ → Prop}
    {result : EStateM.Result (ReadError ε) τ α} (h : Ends holds failed result) :
    holds (after result) :=
  after_of_always h.always

/-- What every step preserves is preserved by a request. -/
theorem Preserved.serve {holds : Scanner σ → Prop} {failed : ReadError ε → Scanner σ → Prop}
    {s : Scanner σ} (hp : Preserved holds failed) (h : holds s) (request : Request) :
    holds (s.serve request) := by
  cases request with
  | seek => exact after_of_ends (hp.skipBlankLines h)
  | scan alloc => exact after_of_ends (hp.readField h)

theorem Preserved.serveAll {holds : Scanner σ → Prop} {failed : ReadError ε → Scanner σ → Prop}
    {s : Scanner σ} (hp : Preserved holds failed) (h : holds s) (requests : List Request) :
    holds (s.serveAll requests) := by
  induction requests generalizing s with
  | nil => exact h
  | cons request requests ih => exact ih (hp.serve h request)

section InOrder

variable {s : Scanner σ} {d : Dialect}

theorem InOrder.serve (h : s.InOrder d) (request : Request) : (s.serve request).InOrder d := by
  cases request with
  | seek => exact after_of_always h.skipBlankLines
  | scan alloc => exact after_of_always h.readField

/-- Whatever a scanner is used for, it stays in order. -/
theorem InOrder.run (h : s.InOrder d) (history : List (Use σ)) : (s.run history).InOrder d := by
  induction history generalizing s with
  | nil => exact h
  | cons use history ih =>
    apply ih
    cases use with
    | attach source => exact after_of_always (h.attach source)
    | request request => exact h.serve request
    | close => exact h.close

end InOrder

variable {s : Scanner (Recorded σ ε)} {d : Dialect} {text consumed rest : List UInt8}
  {ending : Ending ε}

/-- Reading for the first time, or behind bytes that are consumed, puts the scanner one byte
ahead. -/
theorem ends_consume_of_gives {source : σ} (hs : s.source = some ⟨source, consumed.map .byte⟩)
    (hg : Source.Gives source rest ending) :
    Ends (OneAhead · ending consumed rest) StopsAt (consume s) := by
  unfold consume
  rw [hs]
  dsimp only
  cases rest with
  | nil =>
    obtain ⟨t, hread⟩ := Source.read_of_gives_nil hg
    rw [Recorded.read_eq hread]
    cases ending with
    | done => exact ⟨rfl, t, rfl, fun h ↦ absurd rfl h⟩
    | failure cause => exact ⟨⟨rfl, t, rfl, fun h ↦ absurd rfl h⟩, rfl⟩
  | cons b behind =>
    obtain ⟨t, hread, hbehind⟩ := Source.read_of_gives_cons hg
    rw [Recorded.read_eq hread]
    exact ⟨rfl, t, rfl, fun _ ↦ hbehind⟩

/-- Turning to a source puts the scanner one byte ahead. -/
theorem ends_attach (s : Scanner (Recorded σ ε)) {source : σ}
    (hg : Source.Gives source text ending) :
    Ends (OneAhead · ending [] text) StopsAt (attach (Recorded.mk source []) s) :=
  ends_consume_of_gives rfl hg

/-- Consuming the byte in view keeps the scanner one byte ahead. -/
theorem OneAhead.consume {b : UInt8} (h : s.OneAhead ending consumed (b :: rest)) :
    Ends (OneAhead · ending (consumed ++ [b]) rest) StopsAt (Scanner.consume s) := by
  obtain ⟨source, hs, hg⟩ := h.source
  refine ends_consume_of_gives ?_ (hg (List.cons_ne_nil _ _))
  rw [hs, List.map_append]
  rfl

/-- The scanner is one byte ahead, somewhere between what it has consumed and the end. -/
def Onward (ending : Ending ε) (consumed rest : List UInt8) (s : Scanner (Recorded σ ε)) : Prop :=
  ∃ taken behind, rest = taken ++ behind ∧ s.OneAhead ending (consumed ++ taken) behind

/-- Every step of scanning keeps the scanner one byte ahead. -/
theorem preserved_onward (ending : Ending ε) (consumed rest : List UInt8) :
    Preserved (Onward (σ := σ) ending consumed rest) StopsAt where
  note h _ := by
    obtain ⟨taken, behind, hrest, h⟩ := h
    exact ⟨taken, behind, hrest, h.ahead, h.source⟩
  clear h := by
    obtain ⟨taken, behind, hrest, h⟩ := h
    exact ⟨taken, behind, hrest, h.ahead, h.source⟩
  push h _ := by
    obtain ⟨taken, behind, hrest, h⟩ := h
    exact ⟨taken, behind, hrest, h.ahead, h.source⟩
  refused h hs _ := by
    obtain ⟨taken, behind, hrest, h⟩ := h
    exact ⟨⟨taken, behind, hrest, h.ahead, h.source⟩, hs⟩
  consume {s} h hs := by
    obtain ⟨taken, behind, hrest, h⟩ := h
    cases behind with
    | nil => exact absurd h.ahead hs
    | cons b behind =>
      have hconsume := h.consume
      have honward : ∀ t : Scanner (Recorded σ ε),
          t.OneAhead ending (consumed ++ taken ++ [b]) behind → Onward ending consumed rest t := by
        intro t ht
        refine ⟨taken ++ [b], behind, ?_, ?_⟩
        · rw [hrest, List.append_assoc]
          rfl
        · rw [← List.append_assoc]
          exact ht
      cases hc : Scanner.consume s with
      | ok u t => exact honward t (hconsume.of_ok hc)
      | error e t => exact ⟨honward t (hconsume.of_error hc).1, (hconsume.of_error hc).2⟩

/-- A scanner that is one byte ahead stands before the rest, unless it is there that its source
fails. -/
theorem OneAhead.at (h : s.OneAhead ending consumed rest) (hfit : s.Fit d)
    (hne : rest ≠ []) : s.At d rest ending := by
  obtain ⟨source, hs, hg⟩ := h.source
  refine ⟨hfit, h.ahead, ?_⟩
  cases rest with
  | nil => exact absurd rfl hne
  | cons b behind => exact ⟨_, hs, Recorded.gives (hg hne) _⟩

/-- What a scanner stands before is the rest, if it is one byte ahead. -/
theorem OneAhead.eq_of_at (h : s.OneAhead ending consumed rest) (hat : s.At d text ending) :
    rest = text := by
  have hhead : rest.head? = text.head? := h.ahead.symm.trans hat.ahead
  cases rest with
  | nil =>
    cases text with
    | nil => rfl
    | cons b behind => cases hhead
  | cons b behind =>
    cases text with
    | nil => cases hhead
    | cons c behind' =>
      cases hhead
      obtain ⟨source, hs, hg⟩ := h.source
      obtain ⟨r, hs', hg'⟩ := hat.backed
      rw [hs] at hs'
      cases hs'
      obtain ⟨hbehind, -⟩ := (Recorded.gives (hg (List.cons_ne_nil _ _)) _).unique hg'
      rw [List.tail_cons] at hbehind
      rw [hbehind]

/-- An operation that consumes everything up to a text leaves the scanner one byte ahead of it. -/
theorem oneAhead_after_of_leaves {α : Type} {post : α → Scanner (Recorded σ ε) → Prop}
    {result : EStateM.Result (ReadError ε) (Scanner (Recorded σ ε)) α}
    (hl : Leaves d text ending post result)
    (hends : Ends (Onward ending consumed rest) StopsAt result) :
    ∃ taken, rest = taken ++ text ∧ (after result).OneAhead ending (consumed ++ taken) text := by
  cases result with
  | ok a t =>
    obtain ⟨taken, behind, hrest, h⟩ := hends
    obtain rfl := h.eq_of_at hl.1
    exact ⟨taken, hrest, h⟩
  | error e t =>
    obtain ⟨-, rfl, cause, -, rfl⟩ := hl
    obtain ⟨⟨taken, behind, hrest, h⟩, hstop⟩ := hends
    have hnil : behind = [] := List.head?_eq_none_iff.mp (h.ahead.symm.trans hstop)
    subst hnil
    exact ⟨taken, hrest, h⟩

/-- A scan that is refused memory leaves the scanner one byte ahead, before a byte. -/
theorem oneAhead_after_of_refused {α : Type}
    {result : EStateM.Result (ReadError ε) (Scanner (Recorded σ ε)) α} (hroom : Refused result)
    (hends : Ends (Onward ending consumed rest) StopsAt result) :
    ∃ taken behind, rest = taken ++ behind ∧ behind ≠ [] ∧
      (after result).OneAhead ending (consumed ++ taken) behind := by
  obtain ⟨e, t, rfl⟩ := hroom
  obtain ⟨⟨taken, behind, hrest, h⟩, hstop⟩ := hends
  refine ⟨taken, behind, hrest, ?_, h⟩
  rintro rfl
  exact hstop h.ahead

/-- At the end of the text a request finds the end that the grammar sees, and takes nothing. -/
theorem OneAhead.serve_of_nil (d : Dialect) (h : s.OneAhead ending consumed [])
    (request : Request) :
    Takes d s request [] [] ∧ (s.serve request).OneAhead ending consumed [] := by
  have hend : s.ahead = none := h.ahead
  cases request with
  | seek =>
    have htakes : Takes d s .seek [] (Grammar.recordStart d []) := .seek []
    rw [Grammar.recordStart_nil] at htakes
    rw [Scanner.serve, skipBlankLines_of_ahead_eq_none hend]
    exact ⟨htakes, h⟩
  | scan alloc =>
    have hread := readField_of_ahead_eq_none alloc hend
    have hroom : ¬ Refused (readField alloc s) := by
      rintro ⟨e, t, he⟩
      rw [hread] at he
      cases he
    rw [Scanner.serve, hread]
    exact ⟨.scan [] hroom, h.ahead, h.source⟩

/-- A request keeps the scanner one byte ahead of what it leaves. -/
theorem OneAhead.serve (h : s.OneAhead ending consumed rest) (hfit : s.Fit d) (request : Request) :
    ∃ taken behind, rest = taken ++ behind ∧ Takes d s request rest behind ∧
      (s.serve request).OneAhead ending (consumed ++ taken) behind := by
  by_cases hne : rest = []
  · subst hne
    refine ⟨[], [], rfl, ?_⟩
    rw [List.append_nil]
    exact h.serve_of_nil d request
  · have hstart : Onward ending consumed rest s := ⟨[], rest, rfl, by rwa [List.append_nil]⟩
    have hp := preserved_onward (σ := σ) ending consumed rest
    have hat := h.at hfit hne
    cases request with
    | seek =>
      obtain ⟨taken, hrest, hserved⟩ :=
        oneAhead_after_of_leaves (leaves_skipBlankLines hat) (hp.skipBlankLines hstart)
      exact ⟨taken, _, hrest, .seek _, hserved⟩
    | scan alloc =>
      have hends : Ends (Onward ending consumed rest) StopsAt (readField alloc s) :=
        hp.readField hstart
      by_cases hroom : Refused (readField alloc s)
      · obtain ⟨taken, left, hrest, hleft, hserved⟩ := oneAhead_after_of_refused hroom hends
        exact ⟨taken, left, hrest, .refused hroom ⟨taken, hrest.symm⟩ hleft, hserved⟩
      · obtain ⟨taken, hrest, hserved⟩ :=
          oneAhead_after_of_leaves (yields_of_not_refused hroom hat) hends
        exact ⟨taken, _, hrest, .scan _ hroom, hserved⟩

/-- So does any number of requests. -/
theorem OneAhead.serveAll (h : s.OneAhead ending consumed rest) (hs : s.InOrder d)
    (requests : List Request) :
    ∃ taken behind, rest = taken ++ behind ∧ TakesAll d s requests rest behind ∧
      (s.serveAll requests).OneAhead ending (consumed ++ taken) behind := by
  induction requests generalizing s consumed rest with
  | nil => exact ⟨[], rest, rfl, .nil s rest, by rwa [List.append_nil]⟩
  | cons request requests ih =>
    obtain ⟨taken, between, rfl, htakes, hserved⟩ := h.serve hs.fit request
    obtain ⟨more, behind, rfl, hall, h⟩ := ih hserved (hs.serve request)
    refine ⟨taken ++ more, behind, ?_, .cons htakes hall, ?_⟩
    · rw [List.append_assoc]
    · rw [← List.append_assoc]
      exact h

end Scanner

open Scanner

/-- A scanner that has been used in any way is turned to a source and asked to look for records and
to scan fields, in any order, in any dialect and with any memory. The source has then been read once
more than there are bytes consumed, which are those that the requests take, and the byte in view is
the answer to the last read, the first byte that is left. Once the source has stopped it is never
read again, and later requests find the end of the stream and nothing else. -/
theorem reads_one_ahead {alloc : Allocator} {d : Dialect} {fresh : Scanner (Recorded σ ε)}
    {source : σ} {text : List UInt8} {ending : Ending ε} (hs : create alloc d = .ok fresh)
    (hg : Source.Gives source text ending) (history : List (Use (Recorded σ ε)))
    (requests : List Request) :
    let begun := (fresh.run history).perform (.attach ⟨source, []⟩)
    let t := begun.serveAll requests
    ∃ consumed rest r, text = consumed ++ rest ∧ TakesAll d begun requests text rest ∧
      t.source = some r ∧ r.answers.length = consumed.length + 1 ∧
      r.answers <+: text.map .byte ++ [.stop ending] ∧
      t.ahead = rest.head? ∧ r.answers.getLast?.bind Answer.byte? = rest.head? ∧
      ((∃ stopped, Answer.stop stopped ∈ r.answers) ↔ rest = []) ∧
      (rest = [] → ∀ later,
        let u := t.serveAll later
        u.source = some r ∧ u.isAtEnd = true ∧ u.skipBlankLines = .ok () u ∧
          ∀ alloc, u.readField alloc = .ok .record { u with field := u.field.clear } ∧
            u.field.clear.toList = []) := by
  intro begun t
  have hrun : (fresh.run history).InOrder d := (inOrder_of_create hs).run history
  have hbegun : begun.InOrder d := after_of_always (hrun.attach _)
  have hattached : begun.OneAhead ending [] text := after_of_ends (ends_attach _ hg)
  obtain ⟨consumed, rest, htext, htakes, ht⟩ := hattached.serveAll hbegun requests
  rw [List.nil_append] at ht
  obtain ⟨source, hsource, -⟩ := ht.source
  refine ⟨consumed, rest, _, htext, htakes, hsource, ?_, ?_, ht.ahead, ?_, ?_, ?_⟩
  · rw [List.length_append, List.length_map, List.length_singleton]
  · rw [htext]
    exact Answer.append_front_prefix ending consumed rest
  · rw [List.getLast?_concat]
    exact Answer.byte?_front ending rest
  · exact Answer.exists_stop_mem_iff ending consumed rest
  · rintro rfl later u
    obtain ⟨hend, hstays⟩ := serveAll_of_ahead_eq_none ht.ahead later
    refine ⟨hstays.trans hsource, ?_, skipBlankLines_of_ahead_eq_none hend, ?_⟩
    · rw [isAtEnd, hend]
      rfl
    · intro alloc
      exact ⟨readField_of_ahead_eq_none alloc hend, Buffer.toList_clear _⟩

/-- The separator is a line feed and the quote a carriage return. A scan of one source was refused
memory before the next source came, which fails behind two blank lines and would go on with a
letter. That letter is never read. -/
theorem reads_one_ahead_of_failing_script :
    let d : Dialect := ⟨10, 13, true⟩
    let source : Script Unit := ⟨[.ok 10, .ok 13, .error (), .ok 98]⟩
    let history : List (Use (Recorded (Script Unit) Unit)) :=
      [.attach ⟨⟨[.ok 99, .ok 100]⟩, []⟩, .request (.scan fun _ _ ↦ .error .refused), .close]
    ∃ fresh : Scanner (Recorded (Script Unit) Unit), create .unlimited d = .ok fresh ∧
      let t := ((fresh.run history).perform (.attach ⟨source, []⟩)).serve .seek
      ∃ r, t.source = some r ∧ r.answers = [.byte 10, .byte 13, .stop (.failure ())] ∧
        ∀ later, (t.serveAll later).source = some r := by
  intro d source history
  obtain ⟨fresh, hs⟩ :
      ∃ fresh : Scanner (Recorded (Script Unit) Unit), create .unlimited d = .ok fresh := ⟨_, rfl⟩
  refine ⟨fresh, hs, ?_⟩
  obtain ⟨consumed, rest, r, htext, htakes, hsource, hlength, hprefix, -, -, -, hlast⟩ :=
    reads_one_ahead hs (Script.gives_failure [10, 13] () [.ok 98]) history [.seek]
  have hrest : rest = [] := by
    cases htakes with
    | cons h hall =>
      cases h
      cases hall
      decide
  subst hrest
  refine ⟨r, hsource, ?_, fun later ↦ (hlast rfl later).1⟩
  rw [List.append_nil] at htext
  rw [← htext] at hlength
  exact hprefix.eq_of_length hlength

end Delimited
