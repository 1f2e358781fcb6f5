import Ingest4x.Wal.Directory
import Mathlib.Data.Prod.Lex
import Mathlib.Order.WithBot

/-! # The order of positions

A position lies before another if its segment, or its offset in the same segment, is smaller. The
readers of the log return entries in this order whatever the files hold, and a smaller read limit
only cuts the list off.

* **`WalPosition.place`** — the place of a position, with the lexicographic order.
* **`Ordered`** — entries in order from a start position on.
* **`readEntriesAfterLimit_ordered`**, **`readEntriesAfterLimit_take`** — the reader.
* **`readWalBounds_spec`** — the bounds in terms of the entries. -/

namespace Ingest4x.Wal

open Bytes

/-! ### Places -/

/-- **The place of a position**: its segment and offset. -/
def WalPosition.place (p : WalPosition) : ℕ ×ₗ ℕ := toLex (p.segment, p.offset)

theorem WalPosition.place_le {p q : WalPosition} :
    p.place ≤ q.place ↔ p.segment < q.segment ∨ (p.segment = q.segment ∧ p.offset ≤ q.offset) :=
  Prod.Lex.toLex_le_toLex

theorem WalPosition.place_lt {p q : WalPosition} :
    p.place < q.place ↔ p.segment < q.segment ∨ (p.segment = q.segment ∧ p.offset < q.offset) :=
  Prod.Lex.toLex_lt_toLex

/-- The place of an optional position; no position is before every place. -/
def placeOf : Option WalPosition → WithBot (ℕ ×ₗ ℕ)
  | none => ⊥
  | some p => (p.place : WithBot (ℕ ×ₗ ℕ))

@[simp] theorem placeOf_none : placeOf none = ⊥ := rfl

@[simp] theorem placeOf_some (p : WalPosition) : placeOf (some p) = (p.place : WithBot _) := rfl

theorem placeOf_le_or (p q : Option WalPosition) : placeOf p ≤ placeOf (p.or q) := by
  cases p with
  | none => exact bot_le
  | some p => exact le_rfl

/-- A segment before a checkpoint is before every later one. -/
theorem exists_segment_lt_of_le {p q : Option WalPosition} {id : Nat} (hle : placeOf p ≤ placeOf q)
    (h : ∃ position ∈ p, id < position.segment) : ∃ position ∈ q, id < position.segment := by
  obtain ⟨position, rfl, hlt⟩ := h
  cases q with
  | none => exact absurd (le_bot_iff.mp hle) WithBot.coe_ne_bot
  | some later =>
    refine ⟨later, rfl, lt_of_lt_of_le hlt ?_⟩
    rcases WalPosition.place_le.mp (WithBot.coe_le_coe.mp hle) with hlt | ⟨heq, -⟩
    · exact hlt.le
    · exact heq.le

/-- **A checkpoint covers an entry** if the entry lies before it. -/
def Covered (checkpoint : Option WalPosition) (entry : WalEntry) : Prop :=
  placeOf (some entry.position) < placeOf checkpoint

theorem Covered.mono {checkpoint checkpoint' : Option WalPosition} {entry : WalEntry}
    (h : Covered checkpoint entry) (hle : placeOf checkpoint ≤ placeOf checkpoint') :
    Covered checkpoint' entry :=
  lt_of_lt_of_le h hle

theorem not_covered_none (entry : WalEntry) : ¬Covered none entry := not_lt_bot

theorem covered_some {p : WalPosition} {entry : WalEntry} :
    Covered (some p) entry ↔ entry.position.place < p.place :=
  WithBot.coe_lt_coe

/-! ### Ordered entries -/

/-- The position up to which a list of entries goes. -/
def lastPosition (entries : List WalEntry) : Option WalPosition :=
  entries.getLast?.map WalEntry.nextPosition

@[simp] theorem lastPosition_nil : lastPosition [] = none := rfl

@[simp] theorem lastPosition_append_singleton (entries : List WalEntry) (entry : WalEntry) :
    lastPosition (entries ++ [entry]) = some entry.nextPosition := by
  rw [lastPosition, List.getLast?_append]
  rfl

theorem lastPosition_append (entries entries' : List WalEntry) :
    lastPosition (entries ++ entries') = (lastPosition entries').or (lastPosition entries) := by
  rw [lastPosition, lastPosition, lastPosition, List.getLast?_append, Option.map_or]

theorem lastPosition_cons (entry : WalEntry) (entries : List WalEntry) :
    lastPosition (entry :: entries) = (lastPosition entries).or (some entry.nextPosition) :=
  lastPosition_append [entry] entries

theorem lastPosition_eq_none {entries : List WalEntry} (h : lastPosition entries = none) :
    entries = [] := by
  rw [lastPosition, Option.map_eq_none_iff, List.getLast?_eq_none_iff] at h
  exact h

/-- **Entries in order**: none lies before the start or before the end of the one in front. -/
def Ordered : Option WalPosition → List WalEntry → Prop
  | _, [] => True
  | start, entry :: entries =>
    placeOf start ≤ placeOf (some entry.position) ∧
      entry.position.place < entry.nextPosition.place ∧
      entry.nextPosition.lsn = entry.position.lsn ∧ Ordered (some entry.nextPosition) entries

namespace Ordered

variable {start start' : Option WalPosition} {entries entries' : List WalEntry} {entry : WalEntry}

/-- An earlier start is as good. -/
theorem mono (h : Ordered start entries) (hle : placeOf start' ≤ placeOf start) :
    Ordered start' entries := by
  cases entries with
  | nil => trivial
  | cons entry entries => exact ⟨hle.trans h.1, h.2⟩

theorem append_iff :
    Ordered start (entries ++ entries') ↔
      Ordered start entries ∧ Ordered ((lastPosition entries).or start) entries' := by
  induction entries generalizing start with
  | nil => simp [Ordered]
  | cons entry entries ih =>
    rw [List.cons_append, Ordered, Ordered, ih, lastPosition_cons, Option.or_assoc, Option.some_or]
    tauto

theorem ofPrefix (h : Ordered start entries') (hpre : entries <+: entries') :
    Ordered start entries := by
  obtain ⟨rest, rfl⟩ := hpre
  exact (append_iff.mp h).1

/-- The end of ordered entries is not before their start. -/
theorem le_lastPosition (h : Ordered start entries) :
    placeOf start ≤ placeOf ((lastPosition entries).or start) := by
  induction entries generalizing start with
  | nil => simp
  | cons entry entries ih =>
    obtain ⟨hle, hlt, -, hrest⟩ := h
    rw [lastPosition_cons, Option.or_assoc, Option.some_or]
    exact (hle.trans (WithBot.coe_le_coe.mpr hlt.le)).trans (ih hrest)

/-- No entry lies before the start. -/
theorem start_le (h : Ordered start entries) (hmem : entry ∈ entries) :
    placeOf start ≤ placeOf (some entry.position) := by
  induction entries generalizing start with
  | nil => cases hmem
  | cons head entries ih =>
    obtain ⟨hle, hlt, -, hrest⟩ := h
    rcases List.mem_cons.mp hmem with rfl | hmem
    · exact hle
    · exact (hle.trans (WithBot.coe_le_coe.mpr hlt.le)).trans (ih hrest hmem)

/-- The start covers no entry. -/
theorem not_covered (h : Ordered start entries) (hmem : entry ∈ entries) : ¬Covered start entry :=
  not_lt.mpr (h.start_le hmem)

/-- The end of ordered entries covers all of them. -/
theorem covered_lastPosition (h : Ordered start entries) (hmem : entry ∈ entries) :
    Covered (lastPosition entries) entry := by
  induction entries generalizing start with
  | nil => cases hmem
  | cons head entries ih =>
    obtain ⟨-, hlt, -, hrest⟩ := h
    rw [lastPosition_cons]
    rcases List.mem_cons.mp hmem with rfl | hmem
    · exact lt_of_lt_of_le (WithBot.coe_lt_coe.mpr hlt) hrest.le_lastPosition
    · have hcovered := ih hrest hmem
      cases hlast : lastPosition entries with
      | none => exact absurd (hlast ▸ hcovered) (not_covered_none entry)
      | some p => rwa [hlast] at hcovered

/-- What the end of the first entries covers is among them. -/
theorem mem_of_covered (h : Ordered start (entries ++ entries'))
    (hmem : entry ∈ entries ++ entries') (hcovered : Covered ((lastPosition entries).or start) entry) :
    entry ∈ entries := by
  rcases List.mem_append.mp hmem with hmem | hmem
  · exact hmem
  · exact absurd hcovered ((append_iff.mp h).2.not_covered hmem)

/-- Entries keep their LSN in the position after them. -/
theorem nextPosition_lsn (h : Ordered start entries) (hmem : entry ∈ entries) :
    entry.nextPosition.lsn = entry.position.lsn := by
  induction entries generalizing start with
  | nil => cases hmem
  | cons head entries ih =>
    obtain ⟨-, -, hlsn, hrest⟩ := h
    rcases List.mem_cons.mp hmem with rfl | hmem
    · exact hlsn
    · exact ih hrest hmem

/-- The places of ordered entries strictly increase. -/
theorem pairwise_place (h : Ordered start entries) :
    entries.Pairwise fun e e' => e.position.place < e'.position.place := by
  induction entries generalizing start with
  | nil => exact List.Pairwise.nil
  | cons head entries ih =>
    obtain ⟨-, hlt, -, hrest⟩ := h
    refine List.pairwise_cons.mpr ⟨fun e hmem => ?_, ih hrest⟩
    exact lt_of_lt_of_le hlt (WithBot.coe_le_coe.mp (hrest.start_le hmem))

end Ordered

section Reading

variable [RecordCodec]

/-! ### Reading a segment -/

/-- A frame that was read is not empty. -/
theorem lt_of_readRecordFrame {path : String} {frameStart nextOffset : Nat} {reader rest : Bytes}
    {record : WalRecord}
    (h : readRecordFrame path frameStart reader = .ok (some (record, nextOffset, rest))) :
    frameStart < nextOffset := by
  unfold readRecordFrame at h
  repeat' split at h
  all_goals cases h
  have hparse := ‹parseFrameHeader path _ = .ok _›
  unfold parseFrameHeader at hparse
  simp only at hparse
  repeat' split at hparse
  all_goals cases hparse
  simp only [recordHeaderFixedLen] at *
  omega

/-- The loop returns entries of its segment, in order. -/
theorem readFramesFuel_ordered {path : String} {segmentId fuel offset valid : Nat}
    {limit : Option Nat} {reader : Bytes} {entries : List WalEntry}
    (h : readFramesFuel path segmentId fuel offset limit reader = .ok (entries, valid)) (lsn : Nat) :
    Ordered (some ⟨lsn, segmentId, offset⟩) entries ∧
      ∀ entry ∈ entries, entry.position.segment = segmentId ∧
        entry.nextPosition.segment = segmentId := by
  induction fuel generalizing offset limit reader entries valid lsn with
  | zero =>
    cases h
    exact ⟨trivial, by simp⟩
  | succ fuel ih =>
    rw [readFramesFuel] at h
    split_ifs at h
    · cases h
      exact ⟨trivial, by simp⟩
    · cases hread : readRecordFrame path offset reader with
      | error error => simp [hread] at h
      | ok found =>
        cases found with
        | none =>
          simp only [hread, Except.ok.injEq, Prod.mk.injEq] at h
          obtain ⟨rfl, -⟩ := h
          exact ⟨trivial, by simp⟩
        | some found =>
          obtain ⟨record, nextOffset, rest⟩ := found
          simp only [hread] at h
          cases hrest : readFramesFuel path segmentId fuel nextOffset (limit.map (· - 1)) rest with
          | error error => simp [hrest] at h
          | ok found =>
            obtain ⟨more, valid'⟩ := found
            simp only [hrest, Except.ok.injEq, Prod.mk.injEq] at h
            obtain ⟨rfl, -⟩ := h
            obtain ⟨hordered, hsegment⟩ := ih hrest record.lsn.toNat
            refine ⟨⟨?_, ?_, rfl, hordered⟩, ?_⟩
            · exact WithBot.coe_le_coe.mpr (WalPosition.place_le.mpr (Or.inr ⟨rfl, le_rfl⟩))
            · exact WalPosition.place_lt.mpr (Or.inr ⟨rfl, lt_of_readRecordFrame hread⟩)
            · intro entry hmem
              rcases List.mem_cons.mp hmem with rfl | hmem
              · exact ⟨rfl, rfl⟩
              · exact hsegment entry hmem

/-- Under a smaller limit the loop returns the first entries. -/
theorem readFramesFuel_take {path : String} {segmentId fuel offset valid : Nat}
    {limit : Option Nat} {reader : Bytes} {entries : List WalEntry}
    (h : readFramesFuel path segmentId fuel offset limit reader = .ok (entries, valid)) (n : Nat)
    (hle : ∀ m ∈ limit, n ≤ m) :
    ∃ valid', readFramesFuel path segmentId fuel offset (some n) reader =
      .ok (entries.take n, valid') := by
  induction fuel generalizing offset limit reader entries valid n with
  | zero =>
    cases h
    exact ⟨offset, by rw [readFramesFuel, List.take_nil]⟩
  | succ fuel ih =>
    rw [readFramesFuel] at h ⊢
    cases n with
    | zero => exact ⟨offset, by simp⟩
    | succ n =>
      have hlimit : limit ≠ some 0 := fun heq => absurd (hle 0 heq) (by omega)
      rw [if_neg hlimit] at h
      rw [if_neg (by simp)]
      cases hread : readRecordFrame path offset reader with
      | error error => simp [hread] at h
      | ok found =>
        cases found with
        | none =>
          simp only [hread, Except.ok.injEq, Prod.mk.injEq] at h
          obtain ⟨rfl, -⟩ := h
          exact ⟨offset, by simp⟩
        | some found =>
          obtain ⟨record, nextOffset, rest⟩ := found
          simp only [hread] at h
          cases hrest : readFramesFuel path segmentId fuel nextOffset (limit.map (· - 1)) rest with
          | error error => simp [hrest] at h
          | ok found =>
            obtain ⟨more, valid'⟩ := found
            simp only [hrest, Except.ok.injEq, Prod.mk.injEq] at h
            obtain ⟨rfl, -⟩ := h
            obtain ⟨valid'', htake⟩ := ih hrest n (fun m hm => by
              obtain ⟨m', hm', rfl⟩ := Option.map_eq_some_iff.mp hm
              have := hle m' hm'
              omega)
            exact ⟨valid'', by simp [htake]⟩

/-- The entries of one segment, in order from the start offset. -/
theorem readSegmentEntriesAfter_ordered {path : String} {segmentId startOffset : Nat} {file : Bytes}
    {limit : Option Nat} {entries : List WalEntry}
    (h : readSegmentEntriesAfter path segmentId file startOffset limit = .ok entries) (lsn : Nat) :
    Ordered (some ⟨lsn, segmentId, startOffset⟩) entries ∧
      ∀ entry ∈ entries, entry.position.segment = segmentId ∧
        entry.nextPosition.segment = segmentId := by
  unfold readSegmentEntriesAfter at h
  repeat' split at h
  all_goals cases h
  exact readFramesFuel_ordered ‹readFrames path segmentId startOffset limit _ = .ok _› lsn

/-- Under a smaller limit a segment reads as its first entries. -/
theorem readSegmentEntriesAfter_take {path : String} {segmentId startOffset : Nat} {file : Bytes}
    {limit : Option Nat} {entries : List WalEntry}
    (h : readSegmentEntriesAfter path segmentId file startOffset limit = .ok entries) (n : Nat)
    (hle : ∀ m ∈ limit, n ≤ m) :
    readSegmentEntriesAfter path segmentId file startOffset (some n) = .ok (entries.take n) := by
  unfold readSegmentEntriesAfter at h ⊢
  cases hheader : readSegmentHeader path file with
  | error error => simp [hheader] at h
  | ok found =>
    obtain ⟨header, reader⟩ := found
    simp only [hheader] at h ⊢
    split_ifs at h ⊢
    cases hread : readFrames path segmentId startOffset limit (file.drop startOffset) with
    | error error => simp [hread] at h
    | ok found =>
      obtain ⟨all, valid⟩ := found
      obtain ⟨valid', htake⟩ := readFramesFuel_take hread n hle
      simp only [hread] at h
      rw [readFrames, htake]
      simp only
      split_ifs at h with hmismatch
      cases h
      rw [if_neg]
      rintro ⟨hstart, htaken⟩
      refine hmismatch ⟨hstart, ?_⟩
      cases entries with
      | nil => simp [startLsnMismatch] at htaken
      | cons entry entries =>
        cases n with
        | zero => simp [startLsnMismatch] at htaken
        | succ n => exact htaken

/-! ### Reading the log -/

omit [RecordCodec] in
/-- The offset from which a segment is read is not before the checkpoint. -/
theorem placeOf_le_startOffset {checkpoint : Option WalPosition} {segmentId : Nat}
    (h : ¬(checkpoint.any fun checkpoint => segmentId < checkpoint.segment) = true) (lsn : Nat) :
    placeOf checkpoint ≤ placeOf (some ⟨lsn, segmentId, startOffset checkpoint segmentId⟩) := by
  cases checkpoint with
  | none => exact bot_le
  | some p =>
    simp only [Option.any_some, decide_eq_true_eq, not_lt] at h
    refine WithBot.coe_le_coe.mpr (WalPosition.place_le.mpr ?_)
    rcases h.lt_or_eq with hlt | rfl
    · exact Or.inl hlt
    · exact Or.inr ⟨rfl, by simp [startOffset, Option.filter]⟩

/-- **One turn of the loop over the segments**: the segment lies before the checkpoint, or the limit
is reached, or entries are added. -/
theorem readSegmentsAfter_cons {path : String} {checkpoint : Option WalPosition}
    {limit : Option Nat} {segmentId : Nat} {file : SegmentFile} {segments : List (Nat × SegmentFile)}
    {acc entries : List WalEntry}
    (h : readSegmentsAfter path checkpoint limit ((segmentId, file) :: segments) acc = .ok entries) :
    ((checkpoint.any fun checkpoint => segmentId < checkpoint.segment) = true ∧
      readSegmentsAfter path checkpoint limit segments acc = .ok entries) ∨
    (¬(checkpoint.any fun checkpoint => segmentId < checkpoint.segment) = true ∧
      ((limit.map (· - acc.length) = some 0 ∧ entries = acc) ∨
      (limit.map (· - acc.length) ≠ some 0 ∧ ∃ found,
        readSegmentEntriesAfter (segmentPath path segmentId) segmentId file.bytes
          (startOffset checkpoint segmentId) (limit.map (· - acc.length)) = .ok found ∧
        (((limit.any fun limit => limit ≤ (acc ++ found).length) = true ∧ entries = acc ++ found) ∨
          (¬(limit.any fun limit => limit ≤ (acc ++ found).length) = true ∧
            readSegmentsAfter path checkpoint limit segments (acc ++ found) = .ok entries))))) := by
  rw [readSegmentsAfter] at h
  by_cases hskip : (checkpoint.any fun checkpoint => segmentId < checkpoint.segment) = true
  · rw [if_pos hskip] at h
    exact Or.inl ⟨hskip, h⟩
  · rw [if_neg hskip] at h
    refine Or.inr ⟨hskip, ?_⟩
    by_cases hzero : limit.map (· - acc.length) = some 0
    · simp only [if_pos hzero, Except.ok.injEq] at h
      exact Or.inl ⟨hzero, h.symm⟩
    · simp only [if_neg hzero] at h
      refine Or.inr ⟨hzero, ?_⟩
      cases hfound : readSegmentEntriesAfter (segmentPath path segmentId) segmentId file.bytes
        (startOffset checkpoint segmentId) (limit.map (· - acc.length)) with
      | error error => simp [hfound] at h
      | ok found =>
        simp only [hfound] at h
        refine ⟨found, rfl, ?_⟩
        by_cases hfull : (limit.any fun limit => limit ≤ (acc ++ found).length) = true
        · rw [if_pos hfull] at h
          cases h
          exact Or.inl ⟨hfull, rfl⟩
        · rw [if_neg hfull] at h
          exact Or.inr ⟨hfull, h⟩

/-- The loop over the segments: it adds entries in order. -/
theorem readSegmentsAfter_ordered {path : String} {checkpoint : Option WalPosition}
    {limit : Option Nat} {segments : List (Nat × SegmentFile)} {acc entries : List WalEntry}
    (hsorted : segments.Pairwise fun a b => a.1 < b.1)
    (h : readSegmentsAfter path checkpoint limit segments acc = .ok entries)
    (hacc : Ordered checkpoint acc)
    (hbefore : ∀ p ∈ lastPosition acc, ∀ segment ∈ segments, p.segment < segment.1) :
    Ordered checkpoint entries := by
  induction segments generalizing acc with
  | nil =>
    cases h
    exact hacc
  | cons segment segments ih =>
    obtain ⟨segmentId, file⟩ := segment
    obtain ⟨hhead, htail⟩ := List.pairwise_cons.mp hsorted
    rcases readSegmentsAfter_cons h with
      ⟨-, h⟩ | ⟨hskip, ⟨-, rfl⟩ | ⟨-, found, hfound, hrest⟩⟩
    · exact ih htail h hacc fun p hp s hs => hbefore p hp s (List.mem_cons_of_mem _ hs)
    · exact hacc
    · obtain ⟨hordered, hsegment⟩ := readSegmentEntriesAfter_ordered hfound 0
      have hnew : Ordered checkpoint (acc ++ found) := by
        refine Ordered.append_iff.mpr ⟨hacc, hordered.mono ?_⟩
        cases hlast : lastPosition acc with
        | none => exact placeOf_le_startOffset hskip 0
        | some p =>
          have hlt := hbefore p hlast _ List.mem_cons_self
          exact WithBot.coe_le_coe.mpr (WalPosition.place_le.mpr (Or.inl hlt))
      rcases hrest with ⟨-, rfl⟩ | ⟨-, h⟩
      · exact hnew
      · refine ih htail h hnew fun p hp s hs => ?_
        rw [lastPosition_append] at hp
        cases hlast : lastPosition found with
        | none =>
          rw [hlast, Option.none_or] at hp
          exact hbefore p hp s (List.mem_cons_of_mem _ hs)
        | some q =>
          rw [hlast, Option.some_or, Option.mem_some] at hp
          subst hp
          obtain ⟨entry, hentry, rfl⟩ := Option.map_eq_some_iff.mp hlast
          rw [(hsegment entry (List.mem_of_getLast? hentry)).2]
          exact hhead s hs

/-- The loop keeps what it has collected in front. -/
theorem isPrefix_readSegmentsAfter {path : String} {checkpoint : Option WalPosition}
    {limit : Option Nat} {segments : List (Nat × SegmentFile)} {acc entries : List WalEntry}
    (h : readSegmentsAfter path checkpoint limit segments acc = .ok entries) : acc <+: entries := by
  induction segments generalizing acc with
  | nil =>
    cases h
    exact List.prefix_rfl
  | cons segment segments ih =>
    rcases readSegmentsAfter_cons h with
      ⟨-, h⟩ | ⟨-, ⟨-, rfl⟩ | ⟨-, found, -, ⟨-, rfl⟩ | ⟨-, h⟩⟩⟩
    · exact ih h
    · exact List.prefix_rfl
    · exact List.prefix_append _ _
    · exact (List.prefix_append _ _).trans (ih h)

/-- Under a smaller limit the loop returns the first entries. -/
theorem readSegmentsAfter_take {path : String} {checkpoint : Option WalPosition}
    {limit : Option Nat} {segments : List (Nat × SegmentFile)} {acc entries : List WalEntry}
    (h : readSegmentsAfter path checkpoint limit segments acc = .ok entries) (n : Nat)
    (hn : acc.length ≤ n) (hle : ∀ m ∈ limit, n ≤ m) :
    readSegmentsAfter path checkpoint (some n) segments acc = .ok (entries.take n) := by
  induction segments generalizing acc with
  | nil =>
    cases h
    rw [readSegmentsAfter, List.take_of_length_le hn]
  | cons segment segments ih =>
    obtain ⟨segmentId, file⟩ := segment
    rw [readSegmentsAfter]
    rcases readSegmentsAfter_cons h with ⟨hskip, h⟩ | ⟨hskip, hread⟩
    · rw [if_pos hskip]
      exact ih h hn
    · rw [if_neg hskip]
      simp only [Option.map_some, Option.some.injEq]
      by_cases hfull : n - acc.length = 0
      · -- the smaller limit is reached before this segment
        rw [if_pos hfull]
        have hpre := isPrefix_readSegmentsAfter h
        rw [show n = acc.length by omega, ← List.prefix_iff_eq_take.mp hpre]
      · rw [if_neg hfull]
        rcases hread with ⟨hzero, -⟩ | ⟨-, found, hfound, hrest⟩
        · obtain ⟨m, hm, hm0⟩ := Option.map_eq_some_iff.mp hzero
          have := hle m hm
          omega
        · have htake := readSegmentEntriesAfter_take hfound (n - acc.length) (fun m hm => by
            obtain ⟨m', hm', rfl⟩ := Option.map_eq_some_iff.mp hm
            have := hle m' hm'
            omega)
          rw [htake]
          have hsplit : acc ++ found.take (n - acc.length) = (acc ++ found).take n := by
            rw [List.take_append, List.take_of_length_le hn]
          have hpre : acc ++ found <+: entries := by
            rcases hrest with ⟨-, rfl⟩ | ⟨-, h⟩
            · exact List.prefix_rfl
            · exact isPrefix_readSegmentsAfter h
          simp only [Option.any_some, decide_eq_true_eq, hsplit]
          by_cases hreach : n ≤ ((acc ++ found).take n).length
          · rw [if_pos hreach]
            obtain ⟨more, rfl⟩ := hpre
            have hlong : n ≤ (acc ++ found).length := by
              rw [List.length_take] at hreach
              omega
            rw [List.take_append_of_le_length hlong]
          · -- this segment does not reach the smaller limit, so all of it is taken
            have hshort : (acc ++ found).length < n := by
              rw [List.length_take] at hreach
              omega
            rw [if_neg hreach, List.take_of_length_le hshort.le]
            rcases hrest with ⟨hany, rfl⟩ | ⟨-, h⟩
            · obtain ⟨m, hm, hm'⟩ := (Option.any_eq_true _ _).mp hany
              have := hle m hm
              rw [decide_eq_true_eq] at hm'
              omega
            · exact ih h hshort.le

/-- **The reader returns entries in order** from the checkpoint on, whatever the files hold. -/
theorem readEntriesAfterLimit_ordered {dir : WalDir} {checkpoint : Option WalPosition}
    {limit : Option Nat} {entries : List WalEntry}
    (h : readEntriesAfterLimit dir checkpoint limit = .ok entries) : Ordered checkpoint entries :=
  readSegmentsAfter_ordered dir.segments.sorted h trivial (by simp)

/-- **A smaller read limit cuts the list off.** -/
theorem readEntriesAfterLimit_take {dir : WalDir} {checkpoint : Option WalPosition}
    {limit : Option Nat} {entries : List WalEntry}
    (h : readEntriesAfterLimit dir checkpoint limit = .ok entries) (n : Nat)
    (hle : ∀ m ∈ limit, n ≤ m) :
    readEntriesAfterLimit dir checkpoint (some n) = .ok (entries.take n) :=
  readSegmentsAfter_take h n (Nat.zero_le n) hle

/-- Of two reads from one checkpoint, one returns the first entries of the other. -/
theorem readEntriesAfterLimit_comparable {dir : WalDir} {checkpoint : Option WalPosition}
    {limit limit' : Option Nat} {entries entries' : List WalEntry}
    (h : readEntriesAfterLimit dir checkpoint limit = .ok entries)
    (h' : readEntriesAfterLimit dir checkpoint limit' = .ok entries') :
    entries <+: entries' ∨ entries' <+: entries := by
  -- the smaller of the two limits decides
  have key : ∀ {limit limit' : Option Nat} {es es' : List WalEntry},
      readEntriesAfterLimit dir checkpoint limit = .ok es →
      readEntriesAfterLimit dir checkpoint limit' = .ok es' → ∀ n, limit' = some n →
      (∀ m ∈ limit, n ≤ m) → es' <+: es := by
    intro limit limit' es es' h h' n hn hle
    have htake := readEntriesAfterLimit_take h n hle
    rw [← hn, h'] at htake
    cases htake
    exact List.take_prefix _ _
  cases limit with
  | none =>
    cases limit' with
    | none =>
      rw [h] at h'
      cases h'
      exact Or.inl List.prefix_rfl
    | some n => exact Or.inr (key h h' n rfl (by simp))
  | some m =>
    cases limit' with
    | none => exact Or.inl (key h' h m rfl (by simp))
    | some n =>
      rcases Nat.le_total n m with hle | hle
      · exact Or.inr (key h h' n rfl (by simpa using hle))
      · exact Or.inl (key h' h m rfl (by simpa using hle))

/-! ### The bounds -/

omit [RecordCodec] in
/-- Adding the entries of one segment to the scan. -/
theorem BoundsScan.addEntries_spec (scan : BoundsScan) (entries : List WalEntry) :
    (scan.addEntries entries).floor = scan.floor.or (entries.head?.map WalEntry.position) ∧
      (scan.addEntries entries).tail = (lastPosition entries).or scan.tail ∧
      (scan.addEntries entries).lastSegment = scan.lastSegment := by
  induction entries generalizing scan with
  | nil => simp [addEntries]
  | cons entry entries ih =>
    obtain ⟨hfloor, htail, hlast⟩ := ih {
      scan with
      floor := some (scan.floor.getD entry.position)
      maxLsn := max scan.maxLsn entry.position.lsn
      tail := some entry.nextPosition }
    refine ⟨hfloor.trans ?_, htail.trans ?_, hlast⟩
    · cases scan.floor <;> simp
    · rw [lastPosition_cons, Option.or_assoc, Option.some_or]

/-- **The scan of the bounds in terms of the entries**: it reads what the reader reads without a
checkpoint and without a limit. -/
theorem scanBounds_spec {path : String} {segments : List (Nat × SegmentFile)}
    {scan scan' : BoundsScan} (h : scanBounds path segments scan = .ok scan') :
    ∃ entries, (∀ acc, readSegmentsAfter path none none segments acc = .ok (acc ++ entries)) ∧
      scan'.floor = scan.floor.or (entries.head?.map WalEntry.position) ∧
      scan'.tail = (lastPosition entries).or scan.tail ∧
      scan'.lastSegment =
        (segments.getLast?.map fun segment => (segment.1, segment.2.bytes.length)).or
          scan.lastSegment ∧
      ∀ entry ∈ entries, ∃ segment ∈ segments, entry.nextPosition.segment = segment.1 := by
  induction segments generalizing scan with
  | nil =>
    cases h
    exact ⟨[], fun acc => by rw [List.append_nil]; rfl, by simp, rfl, rfl, by simp⟩
  | cons segment segments ih =>
    obtain ⟨segmentId, file⟩ := segment
    rw [scanBounds] at h
    cases hfound : readSegmentEntriesAfter (segmentPath path segmentId) segmentId file.bytes
      segmentHeaderLen none with
    | error error => simp [hfound] at h
    | ok found =>
      simp only [hfound] at h
      obtain ⟨entries, hread, hfloor, htail, hlast, hsegment⟩ := ih h
      obtain ⟨hfloor', htail', hlast'⟩ := BoundsScan.addEntries_spec
        { scan with lastSegment := some (segmentId, file.bytes.length) } found
      refine ⟨found ++ entries, fun acc => ?_, ?_, ?_, ?_, ?_⟩
      · rw [readSegmentsAfter]
        simp [startOffset, hfound, hread]
      · rw [hfloor, hfloor', Option.or_assoc, List.head?_append, Option.map_or]
      · rw [htail, htail', lastPosition_append, Option.or_assoc]
      · rw [hlast, hlast', List.getLast?_cons]
        cases segments.getLast? <;> rfl
      · intro entry hmem
        rcases List.mem_append.mp hmem with hmem | hmem
        · exact ⟨_, List.mem_cons_self,
            ((readSegmentEntriesAfter_ordered hfound 0).2 entry hmem).2⟩
        · obtain ⟨segment, hs, heq⟩ := hsegment entry hmem
          exact ⟨segment, List.mem_cons_of_mem _ hs, heq⟩

/-- **The bounds of the log**: the floor is the position of the first entry, and the tail is not
before the end of the last. -/
theorem readWalBounds_spec {dir : WalDir} {bounds : WalBounds} (h : readWalBounds dir = .ok bounds) :
    ∃ entries, readEntriesAfter dir none = .ok entries ∧
      bounds.floor = entries.head?.map WalEntry.position ∧
      placeOf (lastPosition entries) ≤ placeOf bounds.tail := by
  unfold readWalBounds at h
  cases hscan : scanBounds dir.path dir.segments.entries ⟨none, none, 0, none⟩ with
  | error error => simp [hscan, Except.map] at h
  | ok scan =>
    rw [hscan] at h
    cases h
    obtain ⟨entries, hread, hfloor, htail, hlast, hsegment⟩ := scanBounds_spec hscan
    rw [Option.none_or] at hfloor
    rw [Option.or_none] at htail hlast
    refine ⟨entries, hread [], hfloor, ?_⟩
    show placeOf _ ≤ placeOf scan.finalTail
    rw [← htail, BoundsScan.finalTail.eq_def]
    cases hsegments : scan.lastSegment with
    | none => exact le_rfl
    | some last =>
      obtain ⟨segment, offset⟩ := last
      simp only
      split_ifs with hfurther
      · cases hposition : scan.tail with
        | none => exact bot_le
        | some p =>
          rw [hposition, Option.all_some, decide_eq_true_eq] at hfurther
          -- the last entry is in one of the segments, and the last segment has the largest id
          have hle : p.segment ≤ segment := by
            rw [htail] at hposition
            obtain ⟨entry, hentry, rfl⟩ := Option.map_eq_some_iff.mp hposition
            obtain ⟨row, hrow, hid⟩ := hsegment entry (List.mem_of_getLast? hentry)
            rw [hlast] at hsegments
            obtain ⟨row', hrow', heq⟩ := Option.map_eq_some_iff.mp hsegments
            cases heq
            obtain ⟨front, hfront⟩ := List.getLast?_eq_some_iff.mp hrow'
            rw [hid]
            rw [hfront, List.mem_append, List.mem_singleton] at hrow
            rcases hrow with hrow | rfl
            · exact (SortedTable.lt_of_entries_eq_append hfront row hrow).le
            · exact le_rfl
          refine WithBot.coe_le_coe.mpr (WalPosition.place_le.mpr ?_)
          rcases hle.lt_or_eq with hlt | heq
          · exact Or.inl hlt
          · exact Or.inr ⟨heq, by rcases hfurther with h | h <;> simp only <;> omega⟩
      · exact le_rfl

end Reading

end Ingest4x.Wal
