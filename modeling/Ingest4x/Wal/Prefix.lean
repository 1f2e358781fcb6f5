import Ingest4x.Wal.Answer
import Ingest4x.Wal.LogSegment
import Ingest4x.Wal.Repair

/-! # A part of a segment file

A reader that does not wait for the writer sees a part of what is being written, and a crash leaves a
part of it behind. Whatever part of a segment file that is, if it has the header: it reads without an
error, as the first of its entries, and its repair is a part of the repair of the whole file.

* **`readFrames_prefix`** — the loop over frames on a part of the reader.
* **`repairSegmentTail_prefix`** — the readers and the repair on a part of a file.
* **`LogSegment.exists_prefix`** — a part of a well-formed segment is one. -/

namespace Ingest4x.Wal

open Bytes

/-! ### Reading a part -/

/-- **A read from a part of a reader** meets its end, or takes the same field. -/
theorem readExact_prefix {n : Nat} {part reader : Bytes} (h : part <+: reader) :
    readExact n part = none ∨ ∃ field rest rest', readExact n reader = some (field, rest) ∧
      readExact n part = some (field, rest') ∧ rest' <+: rest := by
  obtain ⟨cut, rfl⟩ := h
  by_cases hlen : n ≤ part.length
  · refine Or.inr ⟨part.take n, part.drop n ++ cut, part.drop n, ?_, ?_, List.prefix_append _ _⟩
    · rw [readExact, if_pos (by rw [List.length_append]; omega),
        List.take_append_of_le_length hlen, List.drop_append_of_le_length hlen]
    · rw [readExact, if_pos hlen]
  · exact Or.inl (readExact_eq_none (not_le.mp hlen))

section Codec

variable [RecordCodec] {path : String} {segmentId : Nat}

/-- **One frame from a part of a reader**: the same frame, or the end of the part. -/
theorem readRecordFrame_prefix {frameStart : Nat} {part reader : Bytes}
    {found : Option (WalRecord × Nat × Bytes)} (hpart : part <+: reader)
    (h : readRecordFrame path frameStart reader = .ok found) :
    readRecordFrame path frameStart part = .ok none ∨ ∃ record nextOffset rest rest',
      found = some (record, nextOffset, rest) ∧
      readRecordFrame path frameStart part = .ok (some (record, nextOffset, rest')) ∧
      rest' <+: rest := by
  unfold readRecordFrame at h ⊢
  obtain hmagic | ⟨magic, rest₁, part₁, hread, hmagic, hpart₁⟩ := readExact_prefix (n := 8) hpart
  · exact Or.inl (by rw [hmagic])
  simp only [hread, hmagic] at h ⊢
  split_ifs at h ⊢ with hne
  obtain hfixed | ⟨fixed, rest₂, part₂, hread, hfixed, hpart₂⟩ :=
    readExact_prefix (n := recordHeaderFixedLen - 8) hpart₁
  · exact Or.inl (by rw [hfixed])
  simp only [hread, hfixed] at h ⊢
  cases hheader : parseFrameHeader path fixed with
  | error error =>
    rw [hheader] at h
    cases h
  | ok header =>
    simp only [hheader] at h ⊢
    obtain hnode | ⟨nodeIdBytes, rest₃, part₃, hread, hnode, hpart₃⟩ :=
      readExact_prefix (n := header.nodeIdLen) hpart₂
    · exact Or.inl (by rw [hnode])
    simp only [hread, hnode] at h ⊢
    cases hutf8 : utf8OfBytes nodeIdBytes with
    | none =>
      rw [hutf8] at h
      cases h
    | some nodeId =>
      simp only [hutf8] at h ⊢
      obtain hpayload | ⟨payload, rest₄, part₄, hread, hpayload, hpart₄⟩ :=
        readExact_prefix (n := header.payloadLen) hpart₃
      · exact Or.inl (by rw [hpayload])
      simp only [hread, hpayload] at h ⊢
      cases hrecord : parseFramePayload path header nodeId payload with
      | error error =>
        rw [hrecord] at h
        cases h
      | ok record =>
        simp only [hrecord, Except.ok.injEq] at h ⊢
        exact Or.inr ⟨record, _, rest₄, part₄, h.symm, rfl, hpart₄⟩

/-- The loop over frames ends behind its start. -/
theorem le_valid_of_readFrames {offset valid : Nat} {limit : Option Nat} {reader : Bytes}
    {entries : List WalEntry}
    (h : readFrames path segmentId offset limit reader = .ok (entries, valid)) : offset ≤ valid := by
  induction entries generalizing offset limit reader with
  | nil =>
    rw [readFrames_eq] at h
    split_ifs at h
    · cases h
      exact le_rfl
    split at h
    · cases h
    · cases h
      exact le_rfl
    · split at h <;> cases h
  | cons entry entries ih =>
    rw [readFrames_eq] at h
    split_ifs at h
    · cases h
    split at h
    · cases h
    · cases h
    rename_i record nextOffset rest hread
    split at h
    · cases h
    rename_i entries' valid' hrest
    cases h
    obtain ⟨used, -, rfl, -⟩ := readRecordFrame_eq_some hread
    exact (Nat.le_add_right _ _).trans (ih hrest)

/-- The entries that end at an offset of their segment, or before it. -/
def endingBy (offset : Nat) (entries : List WalEntry) : List WalEntry :=
  entries.takeWhile fun entry => decide (entry.nextPosition.offset ≤ offset)

omit [RecordCodec] in
@[simp] theorem endingBy_nil (offset : Nat) : endingBy offset [] = [] := rfl

omit [RecordCodec] in
theorem endingBy_cons (offset : Nat) (entry : WalEntry) (entries : List WalEntry) :
    endingBy offset (entry :: entries) =
      if entry.nextPosition.offset ≤ offset then entry :: endingBy offset entries else [] := by
  rw [endingBy, List.takeWhile_cons]
  by_cases h : entry.nextPosition.offset ≤ offset
  · rw [if_pos (decide_eq_true h), if_pos h]
    rfl
  · rw [if_neg (by simpa using h), if_neg h]

omit [RecordCodec] in
theorem endingBy_isPrefix (offset : Nat) (entries : List WalEntry) :
    endingBy offset entries <+: entries :=
  List.takeWhile_prefix _

/-- **The loop over frames on a part of a reader** reads the entries that end in it. -/
theorem readFrames_prefix {offset valid : Nat} {limit : Option Nat} {part reader : Bytes}
    {entries : List WalEntry} (hpart : part <+: reader)
    (h : readFrames path segmentId offset limit reader = .ok (entries, valid)) :
    ∃ valid' ≤ valid, readFrames path segmentId offset limit part =
      .ok (endingBy (offset + part.length) entries, valid') := by
  have hle := le_valid_of_readFrames h
  induction entries generalizing offset limit part reader with
  | nil =>
    -- the loop has stopped at once, and so it does on the part
    refine ⟨offset, hle, ?_⟩
    rw [readFrames_eq] at h ⊢
    split_ifs at h ⊢ with hlimit
    · rfl
    split at h
    · cases h
    · rename_i hread
      obtain hnone | ⟨_, _, _, _, hfound, -, -⟩ := readRecordFrame_prefix hpart hread
      · rw [hnone]
        rfl
      · cases hfound
    · split at h <;> cases h
  | cons entry entries ih =>
    rw [readFrames_eq] at h ⊢
    split_ifs at h ⊢ with hlimit
    · cases h
    split at h
    · cases h
    · cases h
    rename_i record nextOffset rest hread
    split at h
    · cases h
    rename_i entries' valid' hrest
    cases h
    obtain ⟨used, hreader, hnext, hsame⟩ := readRecordFrame_eq_some hread
    rw [endingBy_cons]
    obtain hnone | ⟨_, _, _, rest', hfound, hsome, hpart'⟩ := readRecordFrame_prefix hpart hread
    · -- the frame does not end in the part: otherwise it would have been read
      have hlt : offset + part.length < nextOffset := by
        by_contra hge
        have hused : used <+: part := by
          refine List.prefix_of_prefix_length_le (hreader ▸ List.prefix_append used rest) hpart ?_
          omega
        obtain ⟨more, rfl⟩ := hused
        rw [hsame more] at hnone
        cases hnone
      refine ⟨offset, hle, ?_⟩
      rw [hnone, if_neg]
      exact not_le.mpr hlt
    · cases hfound
      obtain ⟨used', rfl, hnext', -⟩ := readRecordFrame_eq_some hsome
      obtain ⟨valid'', hvalid, hread'⟩ := ih hpart' hrest (le_valid_of_readFrames hrest)
      refine ⟨valid'', hvalid, ?_⟩
      have hend : nextOffset + rest'.length = offset + (used' ++ rest').length := by
        rw [List.length_append, hnext', Nat.add_assoc]
      have hin : (walEntry segmentId offset nextOffset record).nextPosition.offset ≤
          offset + (used' ++ rest').length := by
        rw [← hend]
        exact Nat.le_add_right _ _
      rw [if_pos hin, hsome]
      simp only [hread', hend]

/-! ### The functions on a part of a file -/

omit [RecordCodec] in
/-- The start LSN check accepts the first of entries that it accepts. -/
theorem startLsnMismatch_of_isPrefix {header : SegmentHeader} {entries entries' : List WalEntry}
    (hpre : entries' <+: entries) (h : ¬startLsnMismatch header entries = true) :
    ¬startLsnMismatch header entries' = true := by
  cases entries' with
  | nil => exact Bool.false_ne_true
  | cons entry entries' =>
    obtain ⟨rest, rfl⟩ := hpre
    exact h

/-- The header of a part of a file. -/
theorem readSegmentHeader_prefix {part file reader : Bytes} {header : SegmentHeader}
    (hpart : part <+: file) (hlen : segmentHeaderLen ≤ part.length)
    (h : readSegmentHeader path file = .ok (header, reader)) :
    ∃ part', part' <+: reader ∧ readSegmentHeader path part = .ok (header, part') ∧
      part.length = segmentHeaderLen + part'.length := by
  obtain ⟨block, rfl, hblock, hsame⟩ := readSegmentHeader_eq_ok h
  have hpre : block <+: part :=
    List.prefix_of_prefix_length_le (List.prefix_append block reader) hpart (hblock ▸ hlen)
  obtain ⟨part', rfl⟩ := hpre
  exact ⟨part', (List.prefix_append_right_inj block).mp hpart, hsame part',
    by rw [List.length_append, hblock]⟩

/-- The valid offset lies in the file. -/
theorem validOffset_le {file : Bytes} {scan : SegmentScan}
    (h : scanSegment path segmentId file = .ok scan) : scan.validOffset ≤ file.length := by
  unfold scanSegment at h
  split at h
  · cases h
  rename_i header reader hheader
  split at h
  · cases h
  rename_i entries valid hframes
  split_ifs at h
  cases h
  obtain ⟨block, rfl, hblock, -⟩ := readSegmentHeader_eq_ok hheader
  obtain ⟨used, rest, rfl, rfl, -⟩ := readFrames_used hframes
  rw [List.length_append, List.length_append, hblock]
  exact Nat.add_le_add_left (Nat.le_add_right _ _) _

/-- **Scanning a part of a file** finds the first of its records. -/
theorem scanSegment_prefix {part file : Bytes} {scan : SegmentScan} (hpart : part <+: file)
    (hlen : segmentHeaderLen ≤ part.length) (h : scanSegment path segmentId file = .ok scan) :
    ∃ scan', scanSegment path segmentId part = .ok scan' ∧ scan'.records <+: scan.records ∧
      scan'.validOffset ≤ scan.validOffset := by
  unfold scanSegment at h
  split at h
  · cases h
  rename_i header reader hheader
  split at h
  · cases h
  rename_i entries valid hframes
  split_ifs at h with hstart
  cases h
  obtain ⟨part', hpart', hheader', -⟩ := readSegmentHeader_prefix hpart hlen hheader
  obtain ⟨valid', hle, hframes'⟩ := readFrames_prefix hpart' hframes
  have hpre := endingBy_isPrefix (segmentHeaderLen + part'.length) entries
  refine ⟨⟨_, valid'⟩, ?_, hpre.map _, hle⟩
  rw [scanSegment, hheader']
  simp only [hframes', if_neg (startLsnMismatch_of_isPrefix hpre hstart)]

omit [RecordCodec] in
/-- A shorter length cuts a file. -/
theorem setLen_of_le {len : Nat} {file : Bytes} (h : len ≤ file.length) :
    setLen len file = file.take len := by
  rw [setLen, show len - file.length = 0 by omega, List.replicate_zero, List.append_nil]

/-- **Whatever part of a segment file is left**, if it has the header: the repair accepts it, and what
it makes of it is a part of the repair of the whole file, is not changed by another repair, and holds
the first of the records. -/
theorem repairSegmentTail_prefix {part file repaired : Bytes} {valid : Nat}
    (h : repairSegmentTail path segmentId file = .ok (valid, repaired)) (hpart : part <+: file)
    (hlen : segmentHeaderLen ≤ part.length) :
    ∃ valid' repaired', repairSegmentTail path segmentId part = .ok (valid', repaired') ∧
      repaired' <+: repaired ∧
      repairSegmentTail path segmentId repaired' = .ok (valid', repaired') ∧
      ∃ records records', readSegmentRecords path segmentId file = .ok records ∧
        readSegmentRecords path segmentId repaired' = .ok records' ∧ records' <+: records := by
  unfold repairSegmentTail at h
  split at h
  · cases h
  rename_i scan hscan
  cases h
  obtain ⟨scan', hscan', hrecords, hvalid⟩ := scanSegment_prefix hpart hlen hscan
  have hin := validOffset_le hscan
  have hin' := validOffset_le hscan'
  have hcut := (scanSegment_setLen hscan').1
  refine ⟨scan'.validOffset, setLen scan'.validOffset part, ?_, ?_, ?_, scan.records, scan'.records,
    ?_, ?_, hrecords⟩
  · rw [repairSegmentTail, hscan']
  · -- both repairs cut the file
    obtain ⟨cut, rfl⟩ := hpart
    rw [setLen_of_le hin', setLen_of_le hin, ← List.take_append_of_le_length hin']
    exact List.take_prefix_take_left hvalid
  · have hlength : (setLen scan'.validOffset part).length = scan'.validOffset := by
      rw [setLen_of_le hin', List.length_take]
      omega
    rw [repairSegmentTail, hcut]
    simp only
    rw [setLen_of_le hlength.ge, List.take_of_length_le hlength.le]
  · rw [readSegmentRecords, hscan]
    rfl
  · rw [readSegmentRecords, hcut]
    rfl

/-- **A reader that sees a part of a segment file** reads the entries that end in it, and no error. -/
theorem readSegmentEntriesAfter_prefix {part file : Bytes} {start : Nat} {limit : Option Nat}
    {entries : List WalEntry}
    (h : readSegmentEntriesAfter path segmentId file start limit = .ok entries)
    (hpart : part <+: file) (hlen : start ≤ part.length) :
    readSegmentEntriesAfter path segmentId part start limit =
      .ok (endingBy part.length entries) := by
  unfold readSegmentEntriesAfter at h
  split at h
  · cases h
  rename_i header reader hheader
  split_ifs at h with hbefore hbeyond
  split at h
  · cases h
  rename_i entries' valid hframes
  split_ifs at h with hstart
  cases h
  obtain ⟨part', hpart', hheader', -⟩ :=
    readSegmentHeader_prefix hpart ((not_lt.mp hbefore).trans hlen) hheader
  obtain ⟨cut, rfl⟩ := hpart
  rw [List.drop_append_of_le_length hlen] at hframes
  obtain ⟨valid', -, hframes'⟩ := readFrames_prefix (List.prefix_append _ _) hframes
  have hend : start + (part.drop start).length = part.length := by
    rw [List.length_drop]
    omega
  rw [hend] at hframes'
  rw [readSegmentEntriesAfter, hheader']
  simp only [if_neg hbefore, if_neg (not_lt.mpr hlen), hframes']
  refine if_neg ?_
  rintro ⟨heq, hmismatch⟩
  exact startLsnMismatch_of_isPrefix (endingBy_isPrefix _ _) (fun h => hstart ⟨heq, h⟩) hmismatch

/-! ### Parts of well-formed segments -/

/-- A part of a torn tail is one. -/
theorem TornTail.of_prefix {part torn : Bytes} (h : TornTail torn) (hpart : part <+: torn) :
    TornTail part := by
  obtain rfl | ⟨frame, hframe, hne⟩ := h
  · exact Or.inl (List.prefix_nil.mp hpart)
  · refine Or.inr ⟨frame, hpart.trans hframe, ?_⟩
    rintro rfl
    exact hne (hframe.eq_of_length_le hpart.length_le)

/-- **A part of some frames and a torn tail** is the first of the frames and a torn tail, in which the
next frame does not end. -/
theorem exists_framesBytes_prefix {frames : List Frame} {torn part : Bytes} (htorn : TornTail torn)
    (hpart : part <+: framesBytes frames ++ torn) :
    ∃ pre post torn', frames = pre ++ post ∧ part = framesBytes pre ++ torn' ∧ TornTail torn' ∧
      ∀ frame ∈ post.head?, torn'.length < frame.bytes.length := by
  induction frames generalizing part with
  | nil => exact ⟨[], [], part, rfl, rfl, htorn.of_prefix hpart, by rintro _ ⟨⟩⟩
  | cons frame frames ih =>
    rw [framesBytes_cons, List.append_assoc] at hpart
    by_cases hlen : frame.bytes.length ≤ part.length
    · -- the frame is in the part
      obtain ⟨part', rfl⟩ :=
        List.prefix_of_prefix_length_le (List.prefix_append frame.bytes _) hpart hlen
      obtain ⟨pre, post, torn', rfl, rfl, htorn', hnext⟩ :=
        ih ((List.prefix_append_right_inj frame.bytes).mp hpart)
      refine ⟨frame :: pre, post, torn', rfl, ?_, htorn', hnext⟩
      rw [framesBytes_cons, List.append_assoc]
    · have hlt : part.length < frame.bytes.length := not_le.mp hlen
      have hframe : part <+: frame.bytes :=
        List.prefix_of_prefix_length_le hpart (List.prefix_append _ _) hlt.le
      refine ⟨[], frame :: frames, part, rfl, rfl, Or.inr ⟨frame, hframe, ?_⟩, ?_⟩
      · rintro rfl
        exact lt_irrefl _ hlt
      · rintro _ ⟨⟩
        exact hlt

/-- **One segment is a part of another**: the same header, and the first of its frames. -/
structure LogSegment.PartOf (part segment : LogSegment) : Prop where
  id : part.id = segment.id
  nodeId : part.nodeId = segment.nodeId
  startLsn : part.startLsn = segment.startLsn
  header : part.header = segment.header
  frames : part.frames <+: segment.frames

/-- **A part of a well-formed segment**, if it has the header, is one. A frame that ends in the part
is a frame of it. -/
theorem LogSegment.exists_prefix (segment : LogSegment) {part : Bytes} (hpart : part <+: segment.bytes)
    (hlen : segmentHeaderLen ≤ part.length) :
    ∃ segment' : LogSegment, segment'.bytes = part ∧ segment'.PartOf segment ∧
      ∀ front, front <+: segment.frames →
        segmentHeaderLen + (framesBytes front).length ≤ part.length → front <+: segment'.frames := by
  have hheader := segment.length_header
  obtain ⟨part', rfl⟩ : segment.header <+: part :=
    List.prefix_of_prefix_length_le (List.prefix_append segment.header _) hpart (hheader ▸ hlen)
  obtain ⟨pre, post, torn', hframes, rfl, htorn', hnext⟩ :=
    exists_framesBytes_prefix segment.tears ((List.prefix_append_right_inj segment.header).mp hpart)
  have hpre : pre <+: segment.frames := ⟨post, hframes.symm⟩
  have hstarts : ∀ frame ∈ pre.head?, frame.record.lsn = segment.startLsn := by
    intro frame hframe
    obtain ⟨rest, rfl⟩ := List.head?_eq_some_iff.mp hframe
    exact segment.starts frame (by rw [hframes]; rfl)
  refine ⟨{ segment with frames := pre, torn := torn', starts := hstarts, tears := htorn' }, rfl,
    ⟨rfl, rfl, rfl, rfl, hpre⟩, fun front hfront hend => ?_⟩
  rcases List.prefix_or_prefix_of_prefix hfront hpre with h | h
  · exact h
  · -- a longer front would hold the frame that does not end in the part
    obtain ⟨more, rfl⟩ := h
    cases more with
    | nil => simp
    | cons frame more =>
      rw [hframes, List.prefix_append_right_inj] at hfront
      have hhead : frame ∈ post.head? := by
        obtain ⟨rest, rfl⟩ := hfront
        rfl
      have hlt := hnext frame hhead
      rw [framesBytes_append, framesBytes_cons] at hend
      simp only [List.length_append, hheader] at hend
      omega

end Codec

/-! ### A sample file -/

section Sample

attribute [local instance] referenceCodec

/-- Three records, and the file without its last seven bytes. -/
@[irreducible] def wholeBytes : Bytes := (sampleFile 1 1 [(1, "a"), (2, "b"), (3, "c")]).bytes

@[irreducible] def cutBytes : Bytes := wholeBytes.take (wholeBytes.length - 7)

theorem cutBytes_isPrefix : cutBytes <+: wholeBytes := by
  unfold cutBytes
  exact List.take_prefix _ _

/-- The repair of the cut file, which loses the third record. -/
theorem repairSegmentTail_prefix_sample :
    ∃ valid repaired, repairSegmentTail "wal" 1 cutBytes = .ok (valid, repaired) ∧
      repaired.length < cutBytes.length ∧ repaired <+: wholeBytes ∧
      repairSegmentTail "wal" 1 repaired = .ok (valid, repaired) := by
  have hwhole : repairSegmentTail "wal" 1 wholeBytes = .ok (wholeBytes.length, wholeBytes) := by
    decide +kernel
  obtain ⟨valid, repaired, hrepair, hpre, hagain, -⟩ :=
    repairSegmentTail_prefix hwhole cutBytes_isPrefix (by decide +kernel)
  have hshorter : ∀ result ∈ (repairSegmentTail "wal" 1 cutBytes).toOption,
      result.2.length < cutBytes.length := by
    decide +kernel
  exact ⟨valid, repaired, hrepair, hshorter _ (by rw [hrepair]; rfl), hpre, hagain⟩

/-- A reader of the cut file, which finds two of the three entries. -/
theorem readSegmentEntriesAfter_prefix_sample :
    ∃ entries, readSegmentEntriesAfter "wal" 1 wholeBytes segmentHeaderLen none = .ok entries ∧
      entries.length = 3 ∧
      readSegmentEntriesAfter "wal" 1 cutBytes segmentHeaderLen none =
        .ok (endingBy cutBytes.length entries) := by
  obtain ⟨entries, hentries, hlength⟩ : ∃ entries,
      readSegmentEntriesAfter "wal" 1 wholeBytes segmentHeaderLen none = .ok entries ∧
        entries.length = 3 :=
    ⟨((readSegmentEntriesAfter "wal" 1 wholeBytes segmentHeaderLen none).toOption).getD [],
      by decide +kernel, by decide +kernel⟩
  exact ⟨entries, hentries, hlength,
    readSegmentEntriesAfter_prefix hentries cutBytes_isPrefix (by decide +kernel)⟩

end Sample

end Ingest4x.Wal
