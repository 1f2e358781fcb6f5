import Ingest4x.Wal.Log

/-! # How a flush grows the log

While a flush runs, the files from the active segment on hold its frames so far: the active segment
is longer, and more segments may have been opened after it. The last of them may be torn.

* **`LogSegment.push`**, **`LogSegment.tear`**, **`LogSegment.opened`** — one more frame, a part of
  one, and a new segment.
* **`OpenSegment`** — a segment with the number of its bytes that are synced.
* **`Grown`** — the segments that a flush has made of the active one, with a lemma for each step. -/

namespace Ingest4x.Wal

variable [RecordCodec]

/-! ### Longer segments -/

namespace LogSegment

/-- The segment with one more frame. -/
def push (segment : LogSegment) (frame : Frame)
    (hstart : segment.frames = [] → frame.record.lsn = segment.startLsn) : LogSegment :=
  { segment with
    frames := segment.frames ++ [frame]
    torn := []
    starts := by
      intro head hhead
      rw [List.head?_append] at hhead
      cases hframes : segment.frames with
      | nil =>
        rw [hframes] at hhead
        cases hhead
        exact hstart hframes
      | cons first frames =>
        rw [hframes] at hhead
        exact segment.starts head (by rw [hframes]; exact hhead)
    tears := tornTail_nil }

section Push

variable (segment : LogSegment) (frame : Frame)
  (hstart : segment.frames = [] → frame.record.lsn = segment.startLsn)

@[simp] theorem push_id : (segment.push frame hstart).id = segment.id := rfl

@[simp] theorem push_nodeId : (segment.push frame hstart).nodeId = segment.nodeId := rfl

@[simp] theorem push_startLsn : (segment.push frame hstart).startLsn = segment.startLsn := rfl

@[simp] theorem push_header : (segment.push frame hstart).header = segment.header := rfl

@[simp] theorem push_frames : (segment.push frame hstart).frames = segment.frames ++ [frame] := rfl

@[simp] theorem push_torn : (segment.push frame hstart).torn = [] := rfl

theorem push_bytes (htorn : segment.torn = []) :
    (segment.push frame hstart).bytes = segment.bytes ++ frame.bytes := by
  rw [bytes, bytes, htorn, push_header, push_frames, push_torn, framesBytes_append, framesBytes_cons,
    framesBytes_nil, List.append_nil, List.append_nil, List.append_nil, List.append_assoc]

theorem push_endOffset :
    (segment.push frame hstart).endOffset = segment.endOffset + frame.bytes.length := by
  rw [endOffset, endOffset, push_frames, framesBytes_append, List.length_append, framesBytes_cons,
    framesBytes_nil, List.append_nil, Nat.add_assoc]

/-- The entry of the new frame comes last. -/
theorem push_entries :
    (segment.push frame hstart).entries = segment.entries ++ [walEntry segment.id segment.endOffset
      (segment.endOffset + frame.bytes.length) frame.record] := by
  rw [entries, push_frames, entriesFrom_append]
  rfl

end Push

/-- The segment with a part of one more frame. -/
def tear (segment : LogSegment) (torn : Bytes) (tears : TornTail torn) : LogSegment :=
  { segment with torn := torn, tears := tears }

section Tear

variable (segment : LogSegment) (torn : Bytes) (tears : TornTail torn)

@[simp] theorem tear_id : (segment.tear torn tears).id = segment.id := rfl

@[simp] theorem tear_nodeId : (segment.tear torn tears).nodeId = segment.nodeId := rfl

@[simp] theorem tear_startLsn : (segment.tear torn tears).startLsn = segment.startLsn := rfl

@[simp] theorem tear_header : (segment.tear torn tears).header = segment.header := rfl

@[simp] theorem tear_frames : (segment.tear torn tears).frames = segment.frames := rfl

@[simp] theorem tear_torn : (segment.tear torn tears).torn = torn := rfl

@[simp] theorem tear_endOffset : (segment.tear torn tears).endOffset = segment.endOffset := rfl

theorem tear_bytes (htorn : segment.torn = []) :
    (segment.tear torn tears).bytes = segment.bytes ++ torn := by
  rw [bytes, bytes, htorn, tear_header, tear_frames, tear_torn, List.append_nil, List.append_assoc]

end Tear

/-- A new segment. -/
def opened (id : Nat) (nodeId : String) (startLsn createdMs : UInt64) (header : Bytes)
    (encodes : serializeSegmentHeader (UInt64.ofNat id) nodeId startLsn createdMs = .ok header) :
    LogSegment where
  id := id
  nodeId := nodeId
  startLsn := startLsn
  createdMs := createdMs
  header := header
  frames := []
  torn := []
  encodes := encodes
  starts := by
    rintro frame ⟨⟩
  tears := tornTail_nil

section Opened

variable (id : Nat) (nodeId : String) (startLsn createdMs : UInt64) (header : Bytes)
  (encodes : serializeSegmentHeader (UInt64.ofNat id) nodeId startLsn createdMs = .ok header)

@[simp] theorem opened_id : (opened id nodeId startLsn createdMs header encodes).id = id := rfl

@[simp] theorem opened_nodeId :
    (opened id nodeId startLsn createdMs header encodes).nodeId = nodeId := rfl

@[simp] theorem opened_startLsn :
    (opened id nodeId startLsn createdMs header encodes).startLsn = startLsn := rfl

@[simp] theorem opened_frames :
    (opened id nodeId startLsn createdMs header encodes).frames = [] := rfl

@[simp] theorem opened_torn :
    (opened id nodeId startLsn createdMs header encodes).torn = [] := rfl

@[simp] theorem opened_endOffset :
    (opened id nodeId startLsn createdMs header encodes).endOffset = segmentHeaderLen := rfl

@[simp] theorem opened_bytes :
    (opened id nodeId startLsn createdMs header encodes).bytes = header := by
  show header ++ (framesBytes [] ++ []) = header
  rw [framesBytes_nil, List.append_nil, List.append_nil]

end Opened

/-- The file without a torn tail ends where the frames end. -/
theorem length_bytes_of_torn {segment : LogSegment} (htorn : segment.torn = []) :
    segment.bytes.length = segment.endOffset := by
  rw [segment.length_bytes, htorn, List.length_nil, Nat.add_zero]

theorem headerLen_le_endOffset (segment : LogSegment) : segmentHeaderLen ≤ segment.endOffset :=
  Nat.le_add_right _ _

/-- Only a segment without frames ends with its header. -/
theorem frames_eq_nil_iff {segment : LogSegment} :
    segment.frames = [] ↔ segment.endOffset = segmentHeaderLen := by
  rw [endOffset]
  cases hframes : segment.frames with
  | nil => simp
  | cons frame frames =>
    have hlen := frame.length_ge
    simp only [recordHeaderFixedLen] at hlen
    rw [framesBytes_cons, List.length_append]
    simp only [reduceCtorEq, false_iff]
    omega

end LogSegment

/-! ### Segments being written -/

/-- A segment with the number of its bytes that are synced. -/
structure OpenSegment where
  segment : LogSegment
  synced : Nat

namespace OpenSegment

/-- The row of the segment in the directory. -/
def row (d : OpenSegment) : Nat × SegmentFile := (d.segment.id, ⟨d.segment.bytes, d.synced⟩)

/-- The segment with every frame synced, if it has this id. -/
def sync (segmentId : Nat) (d : OpenSegment) : OpenSegment :=
  if d.segment.id = segmentId then ⟨d.segment, d.segment.endOffset⟩ else d

@[simp] theorem sync_segment (segmentId : Nat) (d : OpenSegment) :
    (d.sync segmentId).segment = d.segment := by
  unfold sync
  split_ifs <;> rfl

theorem row_of_synced {d : OpenSegment} (htorn : d.segment.torn = [])
    (hsynced : d.synced = d.segment.endOffset) : d.row = d.segment.stored := by
  rw [row, LogSegment.stored, SegmentFile.created, hsynced,
    LogSegment.length_bytes_of_torn htorn]

end OpenSegment

/-- A segment at rest, as the flush finds it. -/
def LogSegment.rest (segment : LogSegment) : OpenSegment := ⟨segment, segment.endOffset⟩

@[simp] theorem LogSegment.rest_segment (segment : LogSegment) : segment.rest.segment = segment :=
  rfl

/-- **The segment has grown out of another one**: the same header, the same frames at the front, and
these still synced. -/
structure Extends (base : LogSegment) (d : OpenSegment) : Prop where
  header : d.segment.header = base.header
  startLsn : d.segment.startLsn = base.startLsn
  frames : base.frames <+: d.segment.frames
  synced : base.endOffset ≤ d.synced

/-- **What a flush has made of the active segment** by writing the frames `done`: the segment
itself, longer, and then new ones, of which only the last may be torn. -/
structure Grown (base : LogSegment) (done : List Frame) (disk : List OpenSegment) : Prop where
  ids : (disk.map fun d => d.segment.id) = List.range' base.id disk.length
  nodeIds : ∀ d ∈ disk, d.segment.nodeId = base.nodeId
  frames : (disk.flatMap fun d => d.segment.frames) = base.frames ++ done
  synced : ∀ d ∈ disk, segmentHeaderLen ≤ d.synced ∧ d.synced ≤ d.segment.endOffset
  whole : ∀ d ∈ disk.dropLast, d.segment.torn = []
  head : ∀ d ∈ disk.head?, Extends base d

namespace Grown

variable {base : LogSegment} {done : List Frame} {disk front : List OpenSegment}
  {last : OpenSegment}

/-- The flush starts with the active segment. -/
theorem start (base : LogSegment) : Grown base [] [base.rest] where
  ids := rfl
  nodeIds := by
    intro d hd
    rw [List.mem_singleton.mp hd]
    rfl
  frames := by
    rw [List.flatMap_singleton, List.append_nil]
    rfl
  synced := by
    intro d hd
    rw [List.mem_singleton.mp hd]
    exact ⟨base.headerLen_le_endOffset, le_rfl⟩
  whole := by
    intro d hd
    cases hd
  head := by
    rintro d ⟨⟩
    exact ⟨rfl, rfl, List.prefix_rfl, le_rfl⟩

/-- The id of the last segment. -/
theorem last_id (h : Grown base done (front ++ [last])) :
    last.segment.id = base.id + front.length := by
  have hids := h.ids
  rw [List.map_append, List.length_append, List.length_singleton, List.range'_1_concat,
    List.map_singleton] at hids
  exact List.singleton_inj.mp (List.append_inj_right' hids rfl)

/-- The ids of the segments before the last. -/
theorem front_ids (h : Grown base done (front ++ [last])) :
    (front.map fun d => d.segment.id) = List.range' base.id front.length := by
  have hids := h.ids
  rw [List.map_append, List.length_append, List.length_singleton, List.range'_1_concat,
    List.map_singleton] at hids
  exact List.append_inj_left' hids rfl

theorem le_id (h : Grown base done disk) {d : OpenSegment} (hd : d ∈ disk) :
    base.id ≤ d.segment.id ∧ d.segment.id < base.id + disk.length := by
  have hmem : d.segment.id ∈ disk.map fun d => d.segment.id := List.mem_map_of_mem hd
  rw [h.ids, List.mem_range'_1] at hmem
  exact hmem

/-- Another last segment that has grown out of the last one. -/
theorem replaceLast {d : OpenSegment} {more : List Frame}
    (h : Grown base done (front ++ [last])) (hid : d.segment.id = last.segment.id)
    (hnodeId : d.segment.nodeId = last.segment.nodeId)
    (hheader : d.segment.header = last.segment.header)
    (hstart : d.segment.startLsn = last.segment.startLsn)
    (hframes : d.segment.frames = last.segment.frames ++ more)
    (hlower : last.synced ≤ d.synced) (hupper : d.synced ≤ d.segment.endOffset) :
    Grown base (done ++ more) (front ++ [d]) where
  ids := by
    have hids := h.ids
    rw [List.map_append, List.map_singleton, List.length_append] at hids ⊢
    rw [hid]
    exact hids
  nodeIds := by
    intro d' hd'
    rcases List.mem_append.mp hd' with hd' | hd'
    · exact h.nodeIds d' (List.mem_append_left _ hd')
    · rw [List.mem_singleton.mp hd', hnodeId]
      exact h.nodeIds last (by simp)
  frames := by
    have hall := h.frames
    rw [List.flatMap_append, List.flatMap_singleton] at hall ⊢
    rw [hframes, ← List.append_assoc, hall, List.append_assoc]
  synced := by
    intro d' hd'
    rcases List.mem_append.mp hd' with hd' | hd'
    · exact h.synced d' (List.mem_append_left _ hd')
    · rw [List.mem_singleton.mp hd']
      exact ⟨(h.synced last (by simp)).1.trans hlower, hupper⟩
  whole := by
    have hwhole := h.whole
    rw [List.dropLast_concat] at hwhole ⊢
    exact hwhole
  head := by
    intro d' hd'
    have hhead := h.head
    cases front with
    | nil =>
      cases hd'
      have hlast := hhead last rfl
      exact ⟨hheader.trans hlast.header, hstart.trans hlast.startLsn,
        hlast.frames.trans ⟨more, hframes.symm⟩, hlast.synced.trans hlower⟩
    | cons first front => exact hhead d' hd'

/-- **One more frame** in the last segment. -/
theorem push (h : Grown base done (front ++ [last])) (frame : Frame)
    (hstart : last.segment.frames = [] → frame.record.lsn = last.segment.startLsn) :
    Grown base (done ++ [frame]) (front ++ [⟨last.segment.push frame hstart, last.synced⟩]) := by
  refine h.replaceLast (by rfl) (by rfl) (by rfl) (by rfl) (by rfl) le_rfl ?_
  have hupper := (h.synced last (by simp)).2
  show last.synced ≤ (last.segment.push frame hstart).endOffset
  rw [LogSegment.push_endOffset]
  omega

/-- **A part of a frame** in the last segment. -/
theorem tear (h : Grown base done (front ++ [last])) (torn : Bytes) (tears : TornTail torn) :
    Grown base done (front ++ [⟨last.segment.tear torn tears, last.synced⟩]) := by
  have h' : Grown base (done ++ [])
      (front ++ [⟨last.segment.tear torn tears, last.synced⟩]) :=
    h.replaceLast rfl rfl rfl rfl (List.append_nil _).symm le_rfl (h.synced last (by simp)).2
  rwa [List.append_nil] at h'

/-- **A new segment** after the last one. -/
theorem rotate (h : Grown base done (front ++ [last])) (htorn : last.segment.torn = [])
    {segment : LogSegment} (hid : segment.id = last.segment.id + 1)
    (hnodeId : segment.nodeId = base.nodeId) (hframes : segment.frames = []) :
    Grown base done (front ++ [last] ++ [⟨segment, segmentHeaderLen⟩]) where
  ids := by
    have hlength : (front ++ [last] ++ [OpenSegment.mk segment segmentHeaderLen]).length =
        (front ++ [last]).length + 1 := by
      rw [List.length_append, List.length_singleton]
    rw [List.map_append, h.ids, hlength, List.range'_1_concat, List.map_singleton, hid, h.last_id,
      List.length_append, List.length_singleton, Nat.add_assoc]
  nodeIds := by
    intro d hd
    rcases List.mem_append.mp hd with hd | hd
    · exact h.nodeIds d hd
    · rw [List.mem_singleton.mp hd]
      exact hnodeId
  frames := by
    rw [List.flatMap_append, h.frames, List.flatMap_singleton, hframes, List.append_nil]
  synced := by
    intro d hd
    rcases List.mem_append.mp hd with hd | hd
    · exact h.synced d hd
    · rw [List.mem_singleton.mp hd]
      exact ⟨le_rfl, segment.headerLen_le_endOffset⟩
  whole := by
    have hwhole := h.whole
    rw [List.dropLast_concat] at hwhole ⊢
    intro d hd
    rcases List.mem_append.mp hd with hd | hd
    · exact hwhole d hd
    · rw [List.mem_singleton.mp hd]
      exact htorn
  head := by
    intro d hd
    refine h.head d ?_
    cases front with
    | nil => exact hd
    | cons first front => exact hd

/-- **Syncing** one of the segments. -/
theorem sync (h : Grown base done disk) (segmentId : Nat) :
    Grown base done (disk.map (OpenSegment.sync segmentId)) where
  ids := by
    have hids := h.ids
    rw [List.map_map, List.length_map]
    refine Eq.trans (List.map_congr_left fun d _ => ?_) hids
    rw [Function.comp_apply, OpenSegment.sync_segment]
  nodeIds := by
    intro d hd
    obtain ⟨d, hmem, rfl⟩ := List.mem_map.mp hd
    rw [OpenSegment.sync_segment]
    exact h.nodeIds d hmem
  frames := by
    rw [List.flatMap_map]
    refine Eq.trans ?_ h.frames
    congr 1
    funext d
    rw [OpenSegment.sync_segment]
  synced := by
    intro d hd
    obtain ⟨d, hmem, rfl⟩ := List.mem_map.mp hd
    rw [OpenSegment.sync_segment, OpenSegment.sync]
    split_ifs
    · exact ⟨d.segment.headerLen_le_endOffset, le_rfl⟩
    · exact h.synced d hmem
  whole := by
    intro d hd
    rw [← List.map_dropLast] at hd
    obtain ⟨d, hmem, rfl⟩ := List.mem_map.mp hd
    rw [OpenSegment.sync_segment]
    exact h.whole d hmem
  head := by
    intro d hd
    rw [List.head?_map] at hd
    obtain ⟨d, hhead, rfl⟩ := Option.map_eq_some_iff.mp hd
    have hd := h.head d hhead
    refine ⟨?_, ?_, ?_, ?_⟩
    · rw [OpenSegment.sync_segment]
      exact hd.header
    · rw [OpenSegment.sync_segment]
      exact hd.startLsn
    · rw [OpenSegment.sync_segment]
      exact hd.frames
    · have hsynced := (h.synced d (List.mem_of_mem_head? hhead)).2
      rw [OpenSegment.sync]
      split_ifs
      · exact hd.synced.trans hsynced
      · exact hd.synced

/-- **The entries**: those of the active segment, and then those of the frames written. -/
theorem entries (h : Grown base done disk) (hne : disk ≠ []) :
    ∃ added, logEntries (disk.map OpenSegment.segment) = base.entries ++ added ∧
      added.map WalEntry.record = done.map Frame.record := by
  obtain ⟨first, rest, rfl⟩ := List.exists_cons_of_ne_nil hne
  have hfirst := h.head first rfl
  obtain ⟨more, hmore⟩ := hfirst.frames
  have hid : first.segment.id = base.id := by
    have hids := h.ids
    rw [List.map_cons, List.length_cons, List.range'_succ] at hids
    exact (List.cons_eq_cons.mp hids).1
  have hentries : first.segment.entries =
      base.entries ++ entriesFrom base.id base.endOffset more := by
    rw [LogSegment.entries, ← hmore, entriesFrom_append, hid]
    rfl
  refine ⟨entriesFrom base.id base.endOffset more ++ logEntries (rest.map OpenSegment.segment),
    ?_, ?_⟩
  · rw [List.map_cons, logEntries_cons, hentries, List.append_assoc]
  · have hframes := h.frames
    rw [List.flatMap_cons, ← hmore, List.append_assoc, List.append_cancel_left_eq] at hframes
    rw [List.map_append, map_record_entriesFrom, ← hframes, List.map_append, logEntries,
      List.map_flatMap, List.flatMap_map, List.map_flatMap]
    congr 2
    funext d
    exact d.segment.map_record_entries

end Grown

end Ingest4x.Wal
