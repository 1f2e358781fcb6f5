import Ingest4x.Wal.Bounds

/-! # Reading on in a log that changes

Between two reads records are appended to the log and segments before the place to read on from are
removed. What is behind that place stays, and what is appended follows it.

* **`entriesBehind`** — the entries behind a start position.
* **`StandsBetween`** — a start position is a place between two records.
* **`Grows`** — records are appended to a log.
* **`Contents.resume`**, **`Contents.appended`** — what a reader finds when it goes on after some of the
  entries, and when more are appended. -/

namespace Ingest4x.Wal

/-- The entries behind a start position. -/
def entriesBehind (start : Option WalPosition) (entries : List WalEntry) : List WalEntry :=
  match start with
  | none => entries
  | some position => entries.filter (behind position)

@[simp] theorem entriesBehind_none (entries : List WalEntry) : entriesBehind none entries = entries :=
  rfl

@[simp] theorem entriesBehind_some (position : WalPosition) (entries : List WalEntry) :
    entriesBehind (some position) entries = entries.filter (behind position) := rfl

theorem entriesBehind_append (start : Option WalPosition) (entries more : List WalEntry) :
    entriesBehind start (entries ++ more) = entriesBehind start entries ++ entriesBehind start more := by
  cases start with
  | none => rfl
  | some position => exact List.filter_append ..

theorem entriesBehind_sublist (start : Option WalPosition) (entries : List WalEntry) :
    (entriesBehind start entries).Sublist entries := by
  cases start with
  | none => exact List.Sublist.refl entries
  | some position => exact List.filter_sublist

/-- What is behind a start position is an end of the log. -/
theorem exists_append_entriesBehind (start : Option WalPosition) {entries : List WalEntry}
    (h : entries.Pairwise fun e e' => e.position.place < e'.position.place) :
    ∃ front, entries = front ++ entriesBehind start entries := by
  cases start with
  | none => exact ⟨[], rfl⟩
  | some position =>
    induction entries with
    | nil => exact ⟨[], rfl⟩
    | cons entry entries ih =>
      obtain ⟨hhead, htail⟩ := List.pairwise_cons.mp h
      by_cases hbehind : position.place ≤ entry.position.place
      · refine ⟨[], ?_⟩
        rw [List.nil_append, entriesBehind_some, eq_comm, List.filter_eq_self]
        intro e he
        rcases List.mem_cons.mp he with rfl | he
        · exact decide_eq_true hbehind
        · exact decide_eq_true (hbehind.trans (hhead e he).le)
      · obtain ⟨front, hfront⟩ := ih htail
        refine ⟨entry :: front, ?_⟩
        rw [entriesBehind_some, List.filter_cons, behind, decide_eq_false hbehind, List.cons_append]
        exact congrArg (entry :: ·) hfront

/-- **What is behind the end of an entry** is what follows it. -/
theorem Ordered.entriesBehind_append {start : Option WalPosition} {entries saved post : List WalEntry}
    (h : Ordered none entries) (hsplit : entriesBehind start entries = saved ++ post) :
    entriesBehind ((lastPosition saved).or start) entries = post := by
  rcases List.eq_nil_or_concat saved with rfl | ⟨init, last, rfl⟩
  · rw [lastPosition_nil, Option.none_or, hsplit, List.nil_append]
  · rw [List.concat_eq_append] at hsplit ⊢
    rw [lastPosition_append_singleton, Option.some_or, entriesBehind_some]
    obtain ⟨front, hfront⟩ := exists_append_entriesBehind start h.pairwise_place
    rw [hsplit, List.append_assoc, List.singleton_append, ← List.append_assoc] at hfront
    rw [hfront] at h ⊢
    exact h.filter_behind_nextPosition

section Codec

variable [RecordCodec]

/-- **A start position stands between records**: it is a boundary of its segment, if that is there. -/
def StandsBetween (log : List LogSegment) (start : Option WalPosition) : Prop :=
  ∀ position ∈ start, ∀ segment ∈ log, segment.id = position.segment →
    segment.Boundary position.offset

variable {dir dir' : WalDir} {log log' : List LogSegment} {start : Option WalPosition}

/-- **Reading from such a position** finds what is behind it. -/
theorem Contents.readEntriesAfter_behind (h : Contents dir log) (hstart : StandsBetween log start) :
    readEntriesAfter dir start = .ok (entriesBehind start (logEntries log)) := by
  cases start with
  | none => exact h.readEntriesAfter_none
  | some position =>
    rw [readEntriesAfter, ← readEntriesAfterLimit_settled, ← readEntriesAfter,
      h.stored.readEntriesAfter_some (hstart position rfl), entriesBehind_some]

/-- The position after an entry of the log stands between records. -/
theorem standsBetween_nextPosition (hids : log.Pairwise fun s s' => s.id < s'.id) {entry : WalEntry}
    (h : entry ∈ logEntries log) : StandsBetween log (some entry.nextPosition) := by
  rintro _ ⟨⟩ segment hsegment hid
  obtain ⟨segment', -, hmem⟩ := mem_logEntries.mp h
  obtain ⟨hposition, hnext, -⟩ := LogSegment.mem_entries hmem
  exact LogSegment.boundary_nextPosition (segment_of_mem_logEntries hids h hsegment
    (hid.trans (hnext.trans hposition.symm)))

/-! ### One directory, two logs -/

/-- The bytes of a segment determine its frames. -/
theorem LogSegment.frames_eq {segment segment' : LogSegment} (hid : segment.id = segment'.id)
    (hbytes : segment.bytes = segment'.bytes) : segment.frames = segment'.frames := by
  have hscan := segment.scanSegment_bytes ""
  rw [hid, hbytes, segment'.scanSegment_bytes ""] at hscan
  have hrecords : segment'.records = segment.records := by
    injection hscan with hscan
    injection hscan
  have hinjective : Function.Injective Frame.record := by
    rintro ⟨record, bytes, hencodes⟩ ⟨record', bytes', hencodes'⟩ hrecord
    simp only at hrecord
    subst hrecord
    rw [hencodes] at hencodes'
    cases hencodes'
    rfl
  exact (List.map_injective_iff.mpr hinjective hrecords).symm

/-- Two logs in one directory have the same segments up to what is not in their frames. -/
theorem Contents.exists_segment (h : Contents dir log) (h' : Contents dir log')
    {segment : LogSegment} (hmem : segment ∈ log) :
    ∃ segment' ∈ log', segment'.id = segment.id ∧ segment'.frames = segment.frames := by
  have hrow : (segment.id, segment.bytes) ∈ log'.map fun s => (s.id, s.bytes) := by
    rw [← h', h]
    exact List.mem_map_of_mem hmem
  obtain ⟨segment', hmem', heq⟩ := List.mem_map.mp hrow
  obtain ⟨hid, hbytes⟩ := Prod.mk.inj heq
  exact ⟨segment', hmem', hid, LogSegment.frames_eq hid hbytes⟩

theorem Contents.standsBetween (h : Contents dir log) (h' : Contents dir log')
    (hstart : StandsBetween log start) : StandsBetween log' start := by
  intro position hposition segment' hmem' hid'
  obtain ⟨segment, hmem, hid, hframes⟩ := h'.exists_segment h hmem'
  have hboundary := hstart position hposition segment hmem (hid.trans hid')
  rwa [LogSegment.Boundary, hframes] at hboundary

theorem Contents.logEntries_eq (h : Contents dir log) (h' : Contents dir log') :
    logEntries log = logEntries log' := by
  have heq := h.readEntriesAfter_none
  rw [h'.readEntriesAfter_none] at heq
  exact (Except.ok.inj heq).symm

/-! ### Removing segments -/

/-- Removing segment files removes segments of the log. -/
theorem Contents.filter (h : Contents dir log) {keep : Nat → Bool}
    (hsegments : dir'.segments = dir.segments.filter fun id _ => keep id) :
    Contents dir' (log.filter fun segment => keep segment.id) := by
  have hleft : (dir.segments.entries.filter fun row => keep row.1).map
      (fun row => (row.1, row.2.bytes)) =
      (dir.segments.entries.map fun row => (row.1, row.2.bytes)).filter fun row => keep row.1 := by
    rw [List.filter_map]
    rfl
  have hright : (log.filter fun segment => keep segment.id).map (fun s => (s.id, s.bytes)) =
      (log.map fun s => (s.id, s.bytes)).filter fun row => keep row.1 := by
    rw [List.filter_map]
    rfl
  rw [Contents, hright, ← h, ← hleft, hsegments]
  rfl

/-- Where only segments before a position are removed, what is behind it stays. -/
theorem entriesBehind_logEntries_filter {position : WalPosition} {keep : Nat → Bool}
    (hremoved : ∀ id, keep id = false → id < position.segment) (log : List LogSegment) :
    entriesBehind (some position) (logEntries (log.filter fun segment => keep segment.id)) =
      entriesBehind (some position) (logEntries log) := by
  induction log with
  | nil => rfl
  | cons segment log ih =>
    rw [List.filter_cons, logEntries_cons, entriesBehind_append]
    cases hkeep : keep segment.id with
    | true =>
      rw [if_pos rfl, logEntries_cons, entriesBehind_append, ih]
    | false =>
      have hnone : entriesBehind (some position) segment.entries = [] := by
        refine List.filter_eq_nil_iff.mpr fun entry hentry hbehind => ?_
        have hlt := hremoved segment.id hkeep
        have hid := (LogSegment.mem_entries hentry).1
        rcases WalPosition.place_le.mp (of_decide_eq_true hbehind) with hle | ⟨heq, -⟩
        · omega
        · omega
      rw [if_neg Bool.false_ne_true, ih, hnone, List.nil_append]

/-! ### Appending records -/

/-- **Records are appended to a log**: its last segment gets more frames, and segments follow. -/
inductive Grows : List LogSegment → List LogSegment → Prop
  | fresh (log : List LogSegment) : Grows [] log
  | continues {last last' : LogSegment} {new : List Frame} (front more : List LogSegment)
      (h : Continues last last' new) : Grows (front ++ [last]) (front ++ last' :: more)

theorem Grows.refl (log : List LogSegment) : Grows log log := by
  rcases List.eq_nil_or_concat log with rfl | ⟨front, last, rfl⟩
  · exact Grows.fresh []
  · rw [List.concat_eq_append]
    exact Grows.continues front [] ⟨rfl, (List.append_nil _).symm⟩

/-- The entries of the log stay, and more follow. -/
theorem Grows.exists_logEntries_append (h : Grows log log') :
    ∃ new, logEntries log' = logEntries log ++ new := by
  cases h with
  | fresh => exact ⟨logEntries log', rfl⟩
  | @continues last last' new front more h =>
    have hlast : last'.entries = last.entries ++ entriesFrom last.id
        (segmentHeaderLen + (framesBytes last.frames).length) new := by
      rw [LogSegment.entries, h.id, h.frames, entriesFrom_append]
      rfl
    refine ⟨entriesFrom last.id (segmentHeaderLen + (framesBytes last.frames).length) new ++
      logEntries more, ?_⟩
    rw [logEntries_append, logEntries_cons, hlast, logEntries_append, logEntries_cons,
      logEntries_nil, List.append_nil, List.append_assoc, List.append_assoc]

/-- A position in the log that stands between records does so when the log has grown. -/
theorem Grows.standsBetween (h : Grows log log') (hids : log'.Pairwise fun s s' => s.id < s'.id)
    (hin : ∀ position ∈ start, ∃ segment ∈ log, position.segment ≤ segment.id)
    (hstart : StandsBetween log start) : StandsBetween log' start := by
  intro position hposition segment hsegment hid
  obtain ⟨inside, hinside, hle⟩ := hin position hposition
  cases h with
  | fresh => cases hinside
  | @continues last last' new front more h =>
    have hpairs := List.pairwise_append.mp hids
    rcases List.mem_append.mp hsegment with hfront | hsegment
    · exact hstart position hposition segment (List.mem_append_left _ hfront) hid
    · rcases List.mem_cons.mp hsegment with rfl | hmore
      · obtain ⟨pre, post, hframes, hoffset⟩ := hstart position hposition last
          (List.mem_append_right _ (List.mem_singleton.mpr rfl)) (h.id.symm.trans hid)
        exact ⟨pre, post ++ new, by rw [h.frames, hframes, List.append_assoc], hoffset⟩
      · -- the segments that follow are behind all that were there
        have hlast := (List.pairwise_cons.mp hpairs.2.1).1 segment hmore
        rcases List.mem_append.mp hinside with hfront | hinside
        · have hlt := hpairs.2.2 inside hfront last' List.mem_cons_self
          omega
        · rw [List.mem_singleton.mp hinside, ← h.id] at hle
          omega

/-- **Records are appended in a directory**; the other files stay. -/
structure Appended (dir dir' : WalDir) : Prop where
  path : dir'.path = dir.path
  nodeIdFile : dir'.nodeIdFile = dir.nodeIdFile
  checkpointFile : dir'.checkpointFile = dir.checkpointFile
  grows : ∃ log log', Contents dir log ∧ Contents dir' log' ∧ Grows log log'

/-! ### Going on -/

/-- **After some of the entries**, where only segments before the end of these entries are removed. -/
theorem Contents.resume (h : Contents dir log) (hstart : StandsBetween log start)
    {saved post : List WalEntry} (hsplit : entriesBehind start (logEntries log) = saved ++ post)
    {keep : Nat → Bool} (hsegments : dir'.segments = dir.segments.filter fun id _ => keep id)
    (hremoved : ∀ id, keep id = false → ∃ position ∈ lastPosition saved, id < position.segment) :
    ∃ log', Contents dir' log' ∧ StandsBetween log' ((lastPosition saved).or start) ∧
      entriesBehind ((lastPosition saved).or start) (logEntries log') = post ∧
      (saved = [] → logEntries log' = logEntries log) ∧
      ∀ entry ∈ saved.getLast?, entry ∈ logEntries log' := by
  have hordered := h.stored.ordered
  have hcontents := h.filter hsegments
  have hbehind := hordered.entriesBehind_append hsplit
  refine ⟨_, hcontents, ?_⟩
  rcases List.eq_nil_or_concat saved with rfl | ⟨init, last, rfl⟩
  · -- nothing is removed
    have hkeep : (log.filter fun segment => keep segment.id) = log := by
      refine List.filter_eq_self.mpr fun segment _ => ?_
      cases hkeep : keep segment.id with
      | true => rfl
      | false =>
        obtain ⟨position, hposition, -⟩ := hremoved segment.id hkeep
        cases hposition
    rw [hkeep]
    exact ⟨hstart, hbehind, fun _ => rfl, by rintro entry ⟨⟩⟩
  · rw [List.concat_eq_append] at hsplit hremoved hbehind ⊢
    rw [lastPosition_append_singleton] at hremoved
    rw [lastPosition_append_singleton, Option.some_or] at hbehind ⊢
    have hbefore : ∀ id, keep id = false → id < last.nextPosition.segment := by
      intro id hid
      obtain ⟨_, ⟨⟩, hlt⟩ := hremoved id hid
      exact hlt
    -- the segment of the last entry is kept
    have hlast : last ∈ logEntries (log.filter fun segment => keep segment.id) := by
      have hmem : last ∈ logEntries log := by
        refine (entriesBehind_sublist start _).subset ?_
        rw [hsplit]
        simp
      obtain ⟨segment, hsegment, hentry⟩ := mem_logEntries.mp hmem
      refine mem_logEntries.mpr ⟨segment, List.mem_filter.mpr ⟨hsegment, ?_⟩, hentry⟩
      have hid := (LogSegment.mem_entries hentry).2.1
      cases hkeep : keep segment.id with
      | true => rfl
      | false =>
        have hlt := hbefore segment.id hkeep
        omega
    refine ⟨standsBetween_nextPosition hcontents.stored.ids hlast, ?_, by simp, ?_⟩
    · rw [entriesBehind_logEntries_filter hbefore]
      exact hbehind
    · rintro entry hentry
      rw [List.getLast?_append, List.getLast?_singleton, Option.some_or] at hentry
      cases hentry
      exact hlast

/-- **After records are appended**, from a position that some entries are behind. -/
theorem Contents.appended (h : Contents dir log) (hstart : StandsBetween log start)
    (hne : entriesBehind start (logEntries log) ≠ []) (happended : Appended dir dir') :
    ∃ log' new, Contents dir' log' ∧ StandsBetween log' start ∧
      logEntries log' = logEntries log ++ new := by
  obtain ⟨log₁, log', h₁, h', hgrows⟩ := happended.grows
  obtain ⟨new, hnew⟩ := hgrows.exists_logEntries_append
  refine ⟨log', new, h', ?_, by rw [hnew, h₁.logEntries_eq h]⟩
  refine hgrows.standsBetween h'.stored.ids (fun position hposition => ?_) (h.standsBetween h₁ hstart)
  -- an entry behind the position lies in a segment that is not before it
  obtain ⟨entry, hentry⟩ := List.exists_mem_of_ne_nil _ hne
  cases hposition
  obtain ⟨hmem, hbehind⟩ := List.mem_filter.mp hentry
  rw [h.logEntries_eq h₁] at hmem
  obtain ⟨segment, hsegment, hentry⟩ := mem_logEntries.mp hmem
  have hid := (LogSegment.mem_entries hentry).1
  refine ⟨segment, hsegment, ?_⟩
  rcases WalPosition.place_le.mp (of_decide_eq_true hbehind) with hlt | ⟨heq, -⟩
  · omega
  · omega

end Codec

end Ingest4x.Wal
