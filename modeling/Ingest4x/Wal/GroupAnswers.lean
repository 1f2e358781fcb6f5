import Ingest4x.Wal.GroupCommit
import Mathlib.Data.List.Forall2

/-! # The answers of a group commit

What the answers to appends say of the log, over the runs of a group in which every rollback succeeds.

* **`SyncOk`** — where appends wait: every record buffered is that of a call that waits, and the log
  has grown by the records of the calls that were answered with a position.
* **`NoSyncOk`** — where appends do not wait: the log and the buffer hold the records of all calls, in
  order.
* **`groupCommit_truthful`** — the answers are true. -/

namespace Ingest4x.Wal

open Effect

/-! ### Messages -/

namespace Group

/-- A call carries the record, up to the LSN that the record was given. -/
def Carries (inner : WalWriterInner) (g : Group) (i : Nat) (record : WalRecord) : Prop :=
  ∃ call, g.calls[i]? = some call ∧
    record = assignWalMetadata call.record record.lsn.toNat inner.nodeId

/-- An entry of the log is what a call was answered with. -/
def CommittedAs (inner : WalWriterInner) (g : Group) (entry : WalEntry) (answer : Nat × WalPosition) :
    Prop :=
  entry.position = answer.2 ∧ g.Carries inner answer.1 entry.record

/-- The messages with a position. -/
def oks (g : Group) : List (Nat × WalPosition) :=
  g.messages.filterMap fun message => message.2.toOption.map fun position => (message.1, position)

/-- **The calls that were answered with a position**, in order. -/
def okAnswers (inner : WalWriterInner) (g : Group) : List (Nat × WalPosition) :=
  (List.range g.calls.length).filterMap fun i =>
    ((g.answer inner i).bind Except.toOption).map fun position => (i, position)

/-- **What the calls returned themselves**: a refused call an error, and every other call with an error
has a message with an error. -/
structure Told (g : Group) : Prop where
  refused : ∀ (i : Nat) (call : AppendCall), g.calls[i]? = some call → call.refused = true →
    ∃ error, call.returned = .error error
  errors : ∀ (i : Nat) (call : AppendCall) (error : IoError),
    g.calls[i]? = some call → call.returned = .error error →
    call.refused = true ∨ ∃ error', (i, .error error') ∈ g.messages

/-- What a call carries stays where calls are added. -/
theorem Carries.mono {inner : WalWriterInner} {g g' : Group} {i : Nat} {record : WalRecord}
    (h : g.Carries inner i record) (hcalls : g.calls <+: g'.calls) : g'.Carries inner i record := by
  obtain ⟨call, hcall, hrecord⟩ := h
  obtain ⟨more, hmore⟩ := hcalls
  refine ⟨call, ?_, hrecord⟩
  rw [← hmore, List.getElem?_append_left (List.getElem?_eq_some_iff.mp hcall).1, hcall]

/-- The places of accepted calls where one more call is accepted, or not. -/
theorem accepted_append {g g' : Group} {call : AppendCall} (hcalls : g'.calls = g.calls ++ [call]) :
    g'.accepted = g.accepted ++ if call.refused then [] else [g.calls.length] := by
  have hleft : ∀ i ∈ List.range g.calls.length,
      ((g.calls ++ [call])[i]?).any (fun call => !call.refused) =
        (g.calls[i]?).any fun call => !call.refused := by
    intro i hi
    rw [List.getElem?_append_left (List.mem_range.mp hi)]
  rw [accepted, accepted, hcalls, List.length_append, List.length_singleton, List.range_succ,
    List.filter_append, List.filter_congr hleft]
  congr 1
  rw [List.filter_singleton, List.getElem?_concat_length, Option.any_some]
  cases call.refused <;> rfl

/-- Nobody is accepted twice. -/
theorem accepted_nodup (g : Group) : g.accepted.Nodup :=
  List.nodup_range.filter _

end Group

/-- The messages of one more success. -/
theorem successEvents_cons {entry : BufferedWalRecord} {channel : Nat}
    (hresponse : entry.response = some channel) (buffered : List BufferedWalRecord)
    (position : WalPosition) (positions : List WalPosition) :
    successEvents (entry :: buffered) (position :: positions) =
      .responded channel entry.record (.ok position) :: successEvents buffered positions := by
  rw [successEvents, List.zip_cons_cons, List.flatMap_cons]
  simp only [hresponse, Option.toList_some, List.map_singleton, List.singleton_append]
  rfl

/-- **The messages of a flush that succeeds**: one for each call that waits, with its entry. -/
theorem message_successEvents {inner : WalWriterInner} {g : Group}
    {buffered : List BufferedWalRecord} {added : List WalEntry}
    (hrecords : added.map WalEntry.record = buffered.map BufferedWalRecord.record)
    (hwaits : ∀ entry ∈ buffered, ∃ i, entry.response = some i ∧ g.Carries inner i entry.record) :
    (((successEvents buffered (added.map WalEntry.position)).filterMap Event.message).map Prod.fst =
      buffered.filterMap BufferedWalRecord.response) ∧
    List.Forall₂ (g.CommittedAs inner) added
      (((successEvents buffered (added.map WalEntry.position)).filterMap Event.message).filterMap
        fun message => message.2.toOption.map fun position => (message.1, position)) := by
  induction buffered generalizing added with
  | nil =>
    rw [List.map_nil, List.map_eq_nil_iff] at hrecords
    subst hrecords
    exact ⟨rfl, List.Forall₂.nil⟩
  | cons entry buffered ih =>
    cases added with
    | nil => cases hrecords
    | cons written added =>
      rw [List.map_cons, List.map_cons] at hrecords
      obtain ⟨hrecord, hrecords⟩ := List.cons_eq_cons.mp hrecords
      obtain ⟨i, hresponse, hcarries⟩ := hwaits entry List.mem_cons_self
      obtain ⟨hchannels, hcommitted⟩ := ih hrecords fun entry hentry =>
        hwaits entry (List.mem_cons_of_mem _ hentry)
      rw [List.map_cons, successEvents_cons hresponse]
      refine ⟨?_, List.Forall₂.cons ⟨rfl, hrecord ▸ hcarries⟩ hcommitted⟩
      rw [List.filterMap_cons_some hresponse, ← hchannels]
      rfl

/-- **The messages of a flush that fails**: the error, for each call that waits. -/
theorem message_failureEvents (buffered : List BufferedWalRecord) (message : String) :
    (failureEvents buffered message).filterMap Event.message =
      (buffered.filterMap BufferedWalRecord.response).map fun channel =>
        (channel, .error (.other message)) := by
  induction buffered with
  | nil => rfl
  | cons entry buffered ih =>
    rw [failureEvents, List.flatMap_cons, List.filterMap_append, ← failureEvents, ih]
    cases hresponse : entry.response with
    | none => rw [List.filterMap_cons_none hresponse]; rfl
    | some channel => rw [List.filterMap_cons_some hresponse]; rfl

namespace Group.Told

variable {inner : WalWriterInner} {g g' : Group}

/-- The calls stay told where only messages are added. -/
theorem ofMessages (h : g.Told) (hcalls : g'.calls = g.calls)
    (hmessages : g.messages <+: g'.messages) : g'.Told := by
  refine ⟨fun i call hcall => h.refused i call (hcalls ▸ hcall), fun i call error hcall herror => ?_⟩
  refine (h.errors i call error (hcalls ▸ hcall) herror).imp id ?_
  rintro ⟨error', hmem⟩
  exact ⟨error', hmessages.subset hmem⟩

/-- One more call. -/
theorem append (h : g.Told) {call : AppendCall} (hcalls : g'.calls = g.calls ++ [call])
    (hmessages : g.messages <+: g'.messages)
    (hrefused : call.refused = true → ∃ error, call.returned = .error error)
    (herrors : ∀ error, call.returned = .error error →
      call.refused = true ∨ ∃ error', (g.calls.length, .error error') ∈ g'.messages) : g'.Told := by
  have hcases : ∀ i call', g'.calls[i]? = some call' →
      g.calls[i]? = some call' ∨ (i = g.calls.length ∧ call' = call) := by
    intro i call' hcall
    rw [hcalls] at hcall
    rcases lt_or_ge i g.calls.length with hi | hi
    · rw [List.getElem?_append_left hi] at hcall
      exact Or.inl hcall
    · have hlt := (List.getElem?_eq_some_iff.mp hcall).1
      rw [List.length_append, List.length_singleton] at hlt
      have heq : i = g.calls.length := by omega
      subst heq
      rw [List.getElem?_concat_length] at hcall
      exact Or.inr ⟨rfl, (Option.some.inj hcall).symm⟩
  refine ⟨fun i call' hcall => ?_, fun i call' error hcall herror => ?_⟩
  · rcases hcases i call' hcall with hcall | ⟨rfl, rfl⟩
    · exact h.refused i call' hcall
    · exact hrefused
  · rcases hcases i call' hcall with hcall | ⟨rfl, rfl⟩
    · refine (h.errors i call' error hcall herror).imp id ?_
      rintro ⟨error', hmem⟩
      exact ⟨error', hmessages.subset hmem⟩
    · exact herrors error herror

/-- **A refused call is answered with its error.** -/
theorem answer_of_refused (h : g.Told) (hsync : inner.noSync = false) {i : Nat}
    (hi : i < g.calls.length) (hnot : i ∉ g.accepted) :
    ∃ error, g.answer inner i = some (.error error) := by
  have hcall : g.calls[i]? = some g.calls[i] := List.getElem?_eq_getElem hi
  have hrefused : g.calls[i].refused = true := by
    by_contra hne
    refine hnot (List.mem_filter.mpr ⟨List.mem_range.mpr hi, ?_⟩)
    rw [hcall, Option.any_some, Bool.eq_false_of_not_eq_true hne]
    rfl
  obtain ⟨error, herror⟩ := h.refused i _ hcall hrefused
  refine ⟨error, ?_⟩
  rw [Group.answer, hcall, Option.bind_some, if_neg (by rw [hsync]; exact Bool.false_ne_true), herror]

end Group.Told

/-- The list of the pairs with a key that occurs once. -/
theorem filter_fst_eq_singleton {β : Type} {l : List (Nat × β)} (hnodup : (l.map Prod.fst).Nodup)
    {i : Nat} {r : β} (hmem : (i, r) ∈ l) : (l.filter fun e => e.1 = i) = [(i, r)] := by
  induction l with
  | nil => cases hmem
  | cons e l ih =>
    rw [List.map_cons, List.nodup_cons] at hnodup
    rcases List.mem_cons.mp hmem with rfl | hmem
    · rw [List.filter_cons, if_pos (by simp), List.filter_eq_nil_iff.mpr]
      intro e' he' heq
      exact hnodup.1 (List.mem_map.mpr ⟨e', he', of_decide_eq_true heq⟩)
    · have hne : e.1 ≠ i := fun heq => hnodup.1 (List.mem_map.mpr ⟨(i, r), hmem, heq.symm⟩)
      rw [List.filter_cons, if_neg (by simpa using hne), ih hnodup.2 hmem]

section Codec

variable [RecordCodec]

/-! ### Where appends wait -/

/-- **What holds of a group whose appends wait**: the log is the initial one and the entries `added` of
the calls that have a message with a position. -/
structure SyncOk (inner : WalWriterInner) (k : Nat) (initial : List WalEntry) (g : Group)
    (older : List LogSegment) (active : LogSegment) (n : Nat) (added : List WalEntry) : Prop where
  rest : AtRest inner g.state g.world.dir older active k n
  log : logEntries (older ++ [active]) = initial ++ added
  channels : g.messages.map Prod.fst ++ g.waiting = g.accepted
  buffered : ∀ entry ∈ g.state.buffered, ∃ i, entry.response = some i ∧
    g.Carries inner i entry.record
  committed : List.Forall₂ (g.CommittedAs inner) added g.oks

namespace SyncOk

variable {inner : WalWriterInner} {k n : Nat} {initial added : List WalEntry} {g : Group}
  {older : List LogSegment} {active : LogSegment}

/-- A refused call changes nothing. -/
theorem refuse (h : SyncOk inner k initial g older active n added) (record : WalRecord)
    (error : IoError) : SyncOk inner k initial (g.refuse record error) older active n added where
  rest := h.rest
  log := h.log
  channels := by
    rw [Group.accepted_append (g := g) rfl, if_pos rfl, List.append_nil]
    exact h.channels
  buffered := fun entry hentry => by
    obtain ⟨i, hresponse, hcarries⟩ := h.buffered entry hentry
    exact ⟨i, hresponse, hcarries.mono (List.prefix_append _ _)⟩
  committed := h.committed.imp fun _ _ hcommitted =>
    ⟨hcommitted.1, hcommitted.2.mono (List.prefix_append _ _)⟩

/-- One more record is buffered, and its call waits. -/
theorem push (h : SyncOk inner k initial g older active n added) (hsync : inner.noSync = false)
    {record : WalRecord} {returned : Except IoError WalPosition}
    (hrest : AtRest inner (g.push inner record returned).state g.world.dir older active k n) :
    SyncOk inner k initial (g.push inner record returned) older active n added where
  rest := hrest
  log := h.log
  channels := by
    have hwaiting : (g.push inner record returned).waiting = g.waiting ++ [g.calls.length] := by
      have hchannel : (g.entry inner record).response = some g.calls.length := by
        rw [Group.entry, WalWriterInner.channel, if_neg (by rw [hsync]; exact Bool.false_ne_true)]
      rw [Group.waiting, Group.push_buffered, List.filterMap_append,
        List.filterMap_cons_some hchannel, List.filterMap_nil]
      rfl
    rw [Group.accepted_append (g := g) rfl, if_neg (by simp), hwaiting, ← h.channels,
      List.append_assoc]
    rfl
  buffered := by
    intro entry hentry
    rw [Group.push_buffered] at hentry
    rcases List.mem_append.mp hentry with hentry | hentry
    · obtain ⟨i, hresponse, hcarries⟩ := h.buffered entry hentry
      exact ⟨i, hresponse, hcarries.mono (List.prefix_append _ _)⟩
    · rw [List.mem_singleton.mp hentry]
      have hnext : g.state.nextLsn < 2 ^ 64 := h.rest.bound
      refine ⟨g.calls.length, ?_, ⟨record, returned, false⟩, List.getElem?_concat_length, ?_⟩
      · rw [Group.entry, WalWriterInner.channel, if_neg (by rw [hsync]; simp)]
      · rw [Group.entry, assignWalMetadata_lsn hnext]
  committed := h.committed.imp fun _ _ hcommitted =>
    ⟨hcommitted.1, hcommitted.2.mono (List.prefix_append _ _)⟩

/-- After a flush that succeeds the log has grown by the buffered records, and nobody waits. -/
theorem flushedTo (h : SyncOk inner k initial g older active n added) {t : WalWriterState} {w : World}
    {older' : List LogSegment} {active' : LogSegment} {more : List WalEntry}
    (hflushed : FlushedTo inner g.state g.world (older ++ [active]) k n t w older' active' more) :
    SyncOk inner k initial (g.flushedTo t w) older' active' (n + g.state.buffered.length)
      (added ++ more) ∧ (g.flushedTo t w).waiting = [] := by
  obtain ⟨hchannels, hcommitted⟩ := message_successEvents (g := g) hflushed.records h.buffered
  have hmessages : (g.flushedTo t w).messages = g.messages ++
      (successEvents g.state.buffered (more.map WalEntry.position)).filterMap Event.message := by
    show w.trace.filterMap Event.message = _
    rw [hflushed.trace, List.filterMap_append]
    rfl
  have hwaiting : (g.flushedTo t w).waiting = [] := by
    show t.buffered.filterMap _ = []
    rw [hflushed.buffered, List.filterMap_nil]
  refine ⟨⟨hflushed.rest, ?_, ?_, ?_, ?_⟩, hwaiting⟩
  · rw [hflushed.entries, h.log, List.append_assoc]
  · rw [hwaiting, hmessages, List.map_append, hchannels, List.append_nil]
    exact h.channels
  · intro entry hentry
    have hentry : entry ∈ t.buffered := hentry
    rw [hflushed.buffered] at hentry
    cases hentry
  · rw [Group.oks, hmessages, List.filterMap_append]
    exact List.rel_append h.committed hcommitted

/-- After a flush that fails the log is what it was, and nobody waits: each call that waited has a
message with the error. -/
theorem failedTo (h : SyncOk inner k initial g older active n added) {t : WalWriterState} {w : World}
    {message : String} (hback : RolledBackTo inner message g.state g.world older active k n t w) :
    SyncOk inner k initial (g.failedTo t w) older active n added ∧ (g.failedTo t w).waiting = [] ∧
      (g.failedTo t w).messages =
        g.messages ++ g.waiting.map fun i => (i, .error (.other message)) := by
  -- either nothing was buffered, or every call that waits is told
  have hstate : t.buffered = [] ∧ (g.failedTo t w).messages =
      g.messages ++ g.waiting.map fun i => (i, .error (.other message)) := by
    rcases hback.state with ⟨rfl, htrace, hnone⟩ | ⟨hbuffered, htrace, -⟩
    · have hempty : g.state.buffered = [] := by
        refine List.eq_nil_iff_forall_not_mem.mpr fun entry hentry => ?_
        obtain ⟨i, hresponse, -⟩ := h.buffered entry hentry
        rw [hnone entry hentry] at hresponse
        cases hresponse
      refine ⟨hempty, ?_⟩
      rw [Group.waiting, hempty, List.filterMap_nil, List.map_nil, List.append_nil]
      exact congrArg (List.filterMap Event.message) htrace
    · refine ⟨hbuffered, ?_⟩
      show w.trace.filterMap Event.message = _
      rw [htrace, List.filterMap_append, message_failureEvents]
      rfl
  obtain ⟨hbuffered, hmessages⟩ := hstate
  have hwaiting : (g.failedTo t w).waiting = [] := by
    show t.buffered.filterMap _ = []
    rw [hbuffered, List.filterMap_nil]
  refine ⟨⟨hback.rest, h.log, ?_, ?_, ?_⟩, hwaiting, hmessages⟩
  · rw [hwaiting, hmessages, List.map_append, List.map_map, List.append_nil]
    have hfst : (Prod.fst ∘ fun i : Nat => (i, (.error (.other message) : Except IoError WalPosition)))
        = id := rfl
    rw [hfst, List.map_id]
    exact h.channels
  · intro entry hentry
    have hentry : entry ∈ t.buffered := hentry
    rw [hbuffered] at hentry
    cases hentry
  · have hoks : (g.failedTo t w).oks = g.oks := by
      rw [Group.oks, hmessages, List.filterMap_append, List.filterMap_map]
      have hnone : List.filterMap (fun _ : Nat => (none : Option (Nat × WalPosition))) g.waiting = [] :=
        List.filterMap_eq_nil_iff.mpr fun _ _ => rfl
      exact (congrArg _ hnone).trans (List.append_nil _)
    rw [hoks]
    exact h.committed

end SyncOk

namespace SyncOk

variable {inner : WalWriterInner} {k n : Nat} {initial added : List WalEntry} {g : Group}
  {older : List LogSegment} {active : LogSegment}

/-- No channel has two messages, and a call that waits has none. -/
theorem nodup (h : SyncOk inner k initial g older active n added) :
    (g.messages.map Prod.fst ++ g.waiting).Nodup := by
  rw [h.channels]
  exact g.accepted_nodup

/-- Where nobody waits, nothing is buffered. -/
theorem buffered_eq_nil (h : SyncOk inner k initial g older active n added)
    (hwaiting : g.waiting = []) : g.state.buffered = [] := by
  refine List.eq_nil_iff_forall_not_mem.mpr fun entry hentry => ?_
  obtain ⟨i, hresponse, -⟩ := h.buffered entry hentry
  have hmem : i ∈ g.waiting := List.mem_filterMap.mpr ⟨entry, hentry, hresponse⟩
  rw [hwaiting] at hmem
  cases hmem

/-- **A call with a message is answered by it**, where it did not return an error itself; in either
case the answer has a position if and only if the message has it. -/
theorem answer_of_message (h : SyncOk inner k initial g older active n added)
    (hsync : inner.noSync = false) (htold : g.Told) {i : Nat} {r : Except IoError WalPosition}
    (hmem : (i, r) ∈ g.messages) :
    (g.messages.filter fun message => message.1 = i) = [(i, r)] ∧
      ∃ answer, g.answer inner i = some answer ∧ answer.toOption = r.toOption := by
  have hfilter := filter_fst_eq_singleton (List.nodup_append.mp h.nodup).1 hmem
  have haccepted : i ∈ g.accepted := by
    rw [← h.channels]
    exact List.mem_append_left _ (List.mem_map_of_mem (f := Prod.fst) hmem)
  obtain ⟨hi, hany⟩ := List.mem_filter.mp haccepted
  obtain ⟨call, hcall, hrefused⟩ := (Option.any_eq_true _ _).mp hany
  refine ⟨hfilter, ?_⟩
  rw [Group.answer, hcall, Option.bind_some, if_neg (by rw [hsync]; exact Bool.false_ne_true)]
  cases hreturned : call.returned with
  | ok position => exact ⟨r, by rw [hfilter]; rfl, rfl⟩
  | error error =>
    refine ⟨_, rfl, ?_⟩
    rcases htold.errors i call error hcall hreturned with hrefused' | ⟨error', hmem'⟩
    · rw [hrefused'] at hrefused
      cases hrefused
    · have hmem'' : (i, .error error') ∈
          g.messages.filter fun message => decide (message.1 = i) := by
        rw [List.mem_filter]
        exact ⟨hmem', decide_eq_true rfl⟩
      rw [hfilter, List.mem_singleton] at hmem''
      rw [← (Prod.mk.inj hmem'').2]
      rfl

/-- **A call that waits has no answer.** -/
theorem answer_of_waiting (h : SyncOk inner k initial g older active n added)
    (hsync : inner.noSync = false) (htold : g.Told) {i : Nat} (hmem : i ∈ g.waiting) :
    g.answer inner i = none ∧ ∀ message ∈ g.messages, message.1 ≠ i := by
  have hnone : ∀ message ∈ g.messages, message.1 ≠ i := fun message hmessage heq =>
    (List.nodup_append.mp h.nodup).2.2 message.1 (List.mem_map_of_mem hmessage) i hmem heq
  have haccepted : i ∈ g.accepted := by
    rw [← h.channels]
    exact List.mem_append_right _ hmem
  obtain ⟨hi, hany⟩ := List.mem_filter.mp haccepted
  obtain ⟨call, hcall, hrefused⟩ := (Option.any_eq_true _ _).mp hany
  refine ⟨?_, hnone⟩
  rw [Group.answer, hcall, Option.bind_some, if_neg (by rw [hsync]; exact Bool.false_ne_true)]
  cases hreturned : call.returned with
  | ok position =>
    have hfilter : (g.messages.filter fun message => message.1 = i) = [] :=
      List.filter_eq_nil_iff.mpr fun message hmessage => by simpa using hnone message hmessage
    show ((g.messages.filter fun message => message.1 = i).head?).map Prod.snd = none
    rw [hfilter]
    rfl
  | error error =>
    rcases htold.errors i call error hcall hreturned with hrefused' | ⟨error', hmem'⟩
    · rw [hrefused'] at hrefused
      cases hrefused
    · exact absurd rfl (hnone _ hmem')

/-- The answers with a position are the messages with one, in order. -/
theorem okAnswers_eq (h : SyncOk inner k initial g older active n added)
    (hsync : inner.noSync = false) (htold : g.Told) : g.okAnswers inner = g.oks := by
  let f : Nat → Option (Nat × WalPosition) := fun i =>
    ((g.answer inner i).bind Except.toOption).map fun position => (i, position)
  -- a refused call has no position
  have haccepted : (List.range g.calls.length).filterMap f = g.accepted.filterMap f := by
    rw [Group.accepted, List.filterMap_filter]
    refine List.filterMap_congr fun i hi => ?_
    split_ifs with hany
    · rfl
    · have hnot : i ∉ g.accepted := fun hmem => hany (List.mem_filter.mp hmem).2
      obtain ⟨error, herror⟩ := htold.answer_of_refused hsync (List.mem_range.mp hi) hnot
      simp only [f, herror, Option.bind_some]
      rfl
  have hwaiting : g.waiting.filterMap f = [] := by
    refine List.filterMap_eq_nil_iff.mpr fun i hi => ?_
    simp only [f, (h.answer_of_waiting hsync htold hi).1, Option.bind_none, Option.map_none]
  have hmessages : (g.messages.map Prod.fst).filterMap f = g.oks := by
    rw [List.filterMap_map, Group.oks]
    refine List.filterMap_congr fun message hmessage => ?_
    obtain ⟨-, answer, hanswer, hoption⟩ :=
      h.answer_of_message hsync htold (i := message.1) (r := message.2) hmessage
    simp only [f, Function.comp_apply, hanswer, Option.bind_some, hoption]
  rw [Group.okAnswers, haccepted, ← h.channels, List.filterMap_append, hwaiting, hmessages,
    List.append_nil]

end SyncOk

/-! ### Where appends do not wait -/

section NoSync

omit [RecordCodec]

/-- The records of these calls, with LSNs from here on. -/
def numbered (inner : WalWriterInner) : Nat → List AppendCall → List WalRecord
  | _, [] => []
  | lsn, call :: calls =>
    assignWalMetadata call.record lsn inner.nodeId :: numbered inner (lsn + 1) calls

@[simp] theorem length_numbered (inner : WalWriterInner) (lsn : Nat) (calls : List AppendCall) :
    (numbered inner lsn calls).length = calls.length := by
  induction calls generalizing lsn with
  | nil => rfl
  | cons call calls ih => rw [numbered, List.length_cons, List.length_cons, ih]

theorem numbered_append (inner : WalWriterInner) (lsn : Nat) (calls calls' : List AppendCall) :
    numbered inner lsn (calls ++ calls') =
      numbered inner lsn calls ++ numbered inner (lsn + calls.length) calls' := by
  induction calls generalizing lsn with
  | nil => rfl
  | cons call calls ih =>
    rw [List.cons_append, numbered, numbered, ih, List.cons_append, List.length_cons]
    congr 3
    omega

@[simp] theorem acceptedCalls_append (calls calls' : List AppendCall) :
    acceptedCalls (calls ++ calls') = acceptedCalls calls ++ acceptedCalls calls' :=
  List.filter_append ..

end NoSync

/-- **What holds of a group whose appends do not wait**: the log is the initial one and the records of
the calls before the last flush that succeeded, and the buffer holds those of the calls after it. -/
structure NoSyncOk (inner : WalWriterInner) (k n₀ : Nat) (initial : List WalEntry) (g : Group)
    (older : List LogSegment) (active : LogSegment) (n : Nat) (added : List WalEntry) : Prop where
  rest : AtRest inner g.state g.world.dir older active k n
  log : logEntries (older ++ [active]) = initial ++ added
  silent : ∀ entry ∈ g.state.buffered, entry.response = none
  taken : g.flushed ≤ g.calls.length
  count : n = n₀ + added.length
  written : added.map WalEntry.record =
    numbered inner (n₀ + 1) (acceptedCalls (g.calls.take g.flushed))
  pending : g.state.buffered.map BufferedWalRecord.record =
    numbered inner (n + 1) (acceptedCalls (g.calls.drop g.flushed))

namespace NoSyncOk

variable {inner : WalWriterInner} {k n n₀ : Nat} {initial added : List WalEntry} {g : Group}
  {older : List LogSegment} {active : LogSegment}

/-- A refused call changes nothing. -/
theorem refuse (h : NoSyncOk inner k n₀ initial g older active n added) (record : WalRecord)
    (error : IoError) : NoSyncOk inner k n₀ initial (g.refuse record error) older active n added where
  rest := h.rest
  log := h.log
  silent := h.silent
  taken := by
    show g.flushed ≤ (g.calls ++ [_]).length
    rw [List.length_append]
    exact h.taken.trans (Nat.le_add_right _ _)
  count := h.count
  written := by
    show _ = numbered inner _ (acceptedCalls ((g.calls ++ [_]).take g.flushed))
    rw [List.take_append_of_le_length h.taken]
    exact h.written
  pending := by
    show _ = numbered inner _ (acceptedCalls ((g.calls ++ [_]).drop g.flushed))
    rw [List.drop_append_of_le_length h.taken, acceptedCalls_append]
    exact h.pending.trans (congrArg _ (List.append_nil _).symm)

/-- One more record is buffered, behind the others. -/
theorem push (h : NoSyncOk inner k n₀ initial g older active n added) (hnoSync : inner.noSync = true)
    {record : WalRecord} {returned : Except IoError WalPosition}
    (hrest : AtRest inner (g.push inner record returned).state g.world.dir older active k n) :
    NoSyncOk inner k n₀ initial (g.push inner record returned) older active n added where
  rest := hrest
  log := h.log
  silent := by
    intro entry hentry
    rw [Group.push_buffered] at hentry
    rcases List.mem_append.mp hentry with hentry | hentry
    · exact h.silent entry hentry
    · rw [List.mem_singleton.mp hentry, Group.entry, WalWriterInner.channel, if_pos hnoSync]
  taken := by
    show g.flushed ≤ (g.calls ++ [_]).length
    rw [List.length_append]
    exact h.taken.trans (Nat.le_add_right _ _)
  count := h.count
  written := by
    show _ = numbered inner _ (acceptedCalls ((g.calls ++ [_]).take g.flushed))
    rw [List.take_append_of_le_length h.taken]
    exact h.written
  pending := by
    have hlength := congrArg List.length h.pending
    rw [List.length_map, length_numbered] at hlength
    show _ = numbered inner _ (acceptedCalls ((g.calls ++ [_]).drop g.flushed))
    rw [List.drop_append_of_le_length h.taken, acceptedCalls_append, numbered_append,
      Group.push_buffered, List.map_append, h.pending, ← hlength, ← h.rest.nextLsn]
    rfl

/-- After a flush that succeeds the log has grown by the buffered records. -/
theorem flushedTo (h : NoSyncOk inner k n₀ initial g older active n added) {t : WalWriterState}
    {w : World} {older' : List LogSegment} {active' : LogSegment} {more : List WalEntry}
    (hflushed : FlushedTo inner g.state g.world (older ++ [active]) k n t w older' active' more) :
    NoSyncOk inner k n₀ initial (g.flushedTo t w) older' active' (n + g.state.buffered.length)
      (added ++ more) where
  rest := hflushed.rest
  log := by rw [hflushed.entries, h.log, List.append_assoc]
  silent := by
    intro entry hentry
    have hentry : entry ∈ t.buffered := hentry
    rw [hflushed.buffered] at hentry
    cases hentry
  taken := le_rfl
  count := by
    have hlength := congrArg List.length hflushed.records
    rw [List.length_map, List.length_map] at hlength
    rw [List.length_append, hlength, h.count, Nat.add_assoc]
  written := by
    have hlength := congrArg List.length h.written
    rw [List.length_map, length_numbered] at hlength
    have hcalls : g.calls = g.calls.take g.flushed ++ g.calls.drop g.flushed :=
      (List.take_append_drop _ _).symm
    have hnext : n₀ + 1 + (acceptedCalls (g.calls.take g.flushed)).length = n + 1 := by
      rw [← hlength, h.count]
      omega
    show _ = numbered inner _ (acceptedCalls (g.calls.take g.calls.length))
    rw [List.take_length, List.map_append, h.written, hflushed.records, h.pending]
    conv_rhs => rw [hcalls, acceptedCalls_append, numbered_append, hnext]
  pending := by
    show t.buffered.map _ = numbered inner _ (acceptedCalls (g.calls.drop g.calls.length))
    rw [hflushed.buffered, List.drop_length]
    rfl

/-- After a flush that fails everything is what it was. -/
theorem failedTo (h : NoSyncOk inner k n₀ initial g older active n added) {t : WalWriterState}
    {w : World} {message : String}
    (hback : RolledBackTo inner message g.state g.world older active k n t w) :
    t = g.state ∧ NoSyncOk inner k n₀ initial (g.failedTo t w) older active n added := by
  have hstate : t = g.state := by
    rcases hback.state with ⟨hstate, -, -⟩ | ⟨-, -, entry, hentry, hsome⟩
    · exact hstate
    · exact absurd (h.silent entry hentry) hsome
  subst hstate
  exact ⟨rfl, hback.rest, h.log, h.silent, h.taken, h.count, h.written, h.pending⟩

end NoSyncOk

/-! ### Runs -/

section Runs

variable {mayFail : SysOp → Prop} {inner : WalWriterInner} {k n₀ n : Nat}
  {initial added : List WalEntry} {g g' : Group} {older : List LogSegment} {active : LogSegment}
  {action : GroupAction}

/-- Calls and messages are only added. -/
theorem StepOutcome.grows (h : StepOutcome inner older active k n g action g') :
    g.calls <+: g'.calls ∧ g.messages <+: g'.messages := by
  have hmessages : ∀ {w : World} {events : List Event}, w.trace = g.world.trace ++ events →
      g.messages <+: w.trace.filterMap Event.message := fun htrace => by
    rw [htrace, List.filterMap_append]
    exact List.prefix_append _ _
  cases h with
  | refused => exact ⟨List.prefix_append _ _, List.prefix_rfl⟩
  | buffered rest => exact ⟨List.prefix_append _ _, List.prefix_rfl⟩
  | appendFlushed rest front flushed placed =>
    exact ⟨List.prefix_append _ _, hmessages flushed.trace⟩
  | appendFailed rest front back =>
    obtain ⟨events, htrace, -⟩ := front.trace
    exact ⟨List.prefix_append _ _, hmessages htrace⟩
  | flushed front flushed placed => exact ⟨List.prefix_rfl, hmessages flushed.trace⟩
  | failed front back =>
    obtain ⟨events, htrace, -⟩ := front.trace
    exact ⟨List.prefix_rfl, hmessages htrace⟩

/-- An append adds a call with its record. -/
theorem StepOutcome.calls_append {record : WalRecord}
    (h : StepOutcome inner older active k n g (.append record) g') :
    ∃ call, g'.calls = g.calls ++ [call] ∧ call.record = record := by
  cases h with
  | refused => exact ⟨_, rfl, rfl⟩
  | buffered rest => exact ⟨_, rfl, rfl⟩
  | appendFlushed rest front flushed placed => exact ⟨_, rfl, rfl⟩
  | appendFailed rest front back => exact ⟨_, rfl, rfl⟩

omit [RecordCodec] in
/-- **An answer is final.** -/
theorem Group.answer_mono (hcalls : g.calls <+: g'.calls) (hmessages : g.messages <+: g'.messages)
    {i : Nat} {answer : Except IoError WalPosition} (h : g.answer inner i = some answer) :
    g'.answer inner i = some answer := by
  obtain ⟨call, hcall, hanswer⟩ := Option.bind_eq_some_iff.mp h
  have hcall' : g'.calls[i]? = some call := by
    obtain ⟨more, hmore⟩ := hcalls
    rw [← hmore, List.getElem?_append_left (List.getElem?_eq_some_iff.mp hcall).1, hcall]
  rw [Group.answer, hcall', Option.bind_some]
  split_ifs at hanswer ⊢ with hmode
  · exact hanswer
  · cases hreturned : call.returned with
    | error error =>
      rw [hreturned] at hanswer
      exact hanswer
    | ok position =>
      rw [hreturned] at hanswer
      obtain ⟨more, hmore⟩ := hmessages
      obtain ⟨message, hhead, hmessage⟩ := Option.map_eq_some_iff.mp hanswer
      show ((g'.messages.filter _).head?).map Prod.snd = _
      rw [← hmore, List.filter_append, List.head?_append, hhead, Option.some_or, Option.map_some,
        hmessage]

/-- **A step where appends wait** keeps what holds, and a flush leaves nobody waiting. -/
theorem SyncOk.step (h : SyncOk inner k initial g older active n added) (htold : g.Told)
    (hsync : inner.noSync = false) (hstep : StepOutcome inner older active k n g action g') :
    (∃ older' active' n' added', SyncOk inner k initial g' older' active' n' added') ∧ g'.Told ∧
      (g'.world = g.world ∨ g'.waiting = []) ∧ (action = .flush → g'.waiting = []) := by
  have hgrows := hstep.grows
  cases hstep with
  | @refused record error =>
    refine ⟨⟨_, _, _, _, h.refuse record error⟩, ?_, Or.inl rfl, by rintro ⟨⟩⟩
    exact htold.append rfl hgrows.2 (fun _ => ⟨error, rfl⟩) fun _ _ => Or.inl rfl
  | buffered rest =>
    refine ⟨⟨_, _, _, _, h.push hsync rest⟩, ?_, Or.inl rfl, by rintro ⟨⟩⟩
    exact htold.append rfl hgrows.2 (by rintro ⟨⟩) (by rintro _ ⟨⟩)
  | appendFlushed rest front flushed placed =>
    obtain ⟨hok, hwaiting⟩ := (h.push hsync rest).flushedTo flushed
    refine ⟨⟨_, _, _, _, hok⟩, ?_, Or.inr hwaiting, by rintro ⟨⟩⟩
    exact htold.append rfl hgrows.2 (by rintro ⟨⟩) (by rintro _ ⟨⟩)
  | @appendFailed record error t w rest front back =>
    have hpush := h.push hsync rest
    obtain ⟨hok, hwaiting, hmessages⟩ := hpush.failedTo back
    refine ⟨⟨_, _, _, _, hok⟩, ?_, Or.inr hwaiting, by rintro ⟨⟩⟩
    refine htold.append rfl hgrows.2 (by rintro ⟨⟩) fun _ _ => Or.inr ⟨.other error.message, ?_⟩
    -- the call itself is among those that wait
    have hmem : g.calls.length ∈ (g.push inner record (.error error)).waiting := by
      refine List.mem_filterMap.mpr ⟨g.entry inner record, ?_, ?_⟩
      · rw [Group.push_buffered]
        exact List.mem_append_right _ (List.mem_singleton.mpr rfl)
      · rw [Group.entry, WalWriterInner.channel, if_neg (by rw [hsync]; exact Bool.false_ne_true)]
    rw [hmessages]
    exact List.mem_append_right _ (List.mem_map.mpr ⟨_, hmem, rfl⟩)
  | flushed front flushed placed =>
    obtain ⟨hok, hwaiting⟩ := h.flushedTo flushed
    exact ⟨⟨_, _, _, _, hok⟩, htold.ofMessages rfl hgrows.2, Or.inr hwaiting, fun _ => hwaiting⟩
  | failed front back =>
    obtain ⟨hok, hwaiting, -⟩ := h.failedTo back
    exact ⟨⟨_, _, _, _, hok⟩, htold.ofMessages rfl hgrows.2, Or.inr hwaiting, fun _ => hwaiting⟩

/-- **A step where appends do not wait** keeps what holds. -/
theorem NoSyncOk.step (h : NoSyncOk inner k n₀ initial g older active n added)
    (hnoSync : inner.noSync = true) (hstep : StepOutcome inner older active k n g action g') :
    ∃ older' active' n' added', NoSyncOk inner k n₀ initial g' older' active' n' added' ∧
      added <+: added' := by
  cases hstep with
  | refused => exact ⟨_, _, _, _, h.refuse _ _, List.prefix_rfl⟩
  | buffered rest => exact ⟨_, _, _, _, h.push hnoSync rest, List.prefix_rfl⟩
  | appendFlushed rest front flushed placed =>
    exact ⟨_, _, _, _, (h.push hnoSync rest).flushedTo flushed, List.prefix_append _ _⟩
  | appendFailed rest front back =>
    exact ⟨_, _, _, _, ((h.push hnoSync rest).failedTo back).2, List.prefix_rfl⟩
  | flushed front flushed placed =>
    exact ⟨_, _, _, _, h.flushedTo flushed, List.prefix_append _ _⟩
  | failed front back => exact ⟨_, _, _, _, (h.failedTo back).2, List.prefix_rfl⟩

/-- **A run where appends do not wait** keeps what holds, and the log and the calls only grow. -/
theorem NoSyncOk.runs (h : NoSyncOk inner k n₀ initial g older active n added)
    (hmay : ∀ o, mayFail o → ¬RollbackOp o) (hnoSync : inner.noSync = true)
    (hruns : GroupRuns mayFail inner g g') :
    (∃ older' active' n' added', NoSyncOk inner k n₀ initial g' older' active' n' added' ∧
      added <+: added') ∧ g.calls <+: g'.calls := by
  induction hruns with
  | refl => exact ⟨⟨older, active, n, added, h, List.prefix_rfl⟩, List.prefix_rfl⟩
  | tail _ hstep ih =>
    obtain ⟨⟨older', active', n', added', hok, hgrows⟩, hcalls⟩ := ih
    obtain ⟨action, hstep⟩ := hstep
    have houtcome := hstep.outcome hmay hok.rest
    obtain ⟨older'', active'', n'', added'', hok', hgrows'⟩ := hok.step hnoSync houtcome
    exact ⟨⟨_, _, _, _, hok', hgrows.trans hgrows'⟩, hcalls.trans houtcome.grows.1⟩

/-- What holds along the runs of a group whose appends wait. -/
theorem GroupRuns.syncOk (hmay : ∀ o, mayFail o → ¬RollbackOp o) (hsync : inner.noSync = false)
    {g₀ : Group} (hopened : Opened inner k n₀ initial g₀) (hruns : GroupRuns mayFail inner g₀ g) :
    (∃ older active n added, SyncOk inner k initial g older active n added) ∧ g.Told := by
  induction hruns with
  | refl =>
    obtain ⟨older, active, hrest, hlog⟩ := hopened.rest
    have hmessages : g₀.messages = [] := by
      rw [Group.messages, hopened.trace, List.filterMap_nil]
    have hwaiting : g₀.waiting = [] := by
      rw [Group.waiting, hopened.buffered, List.filterMap_nil]
    refine ⟨⟨older, active, n₀, [], hrest, by rw [hlog, List.append_nil], ?_, ?_, ?_⟩, ?_, ?_⟩
    · rw [hmessages, hwaiting, Group.accepted, hopened.calls]
      rfl
    · rw [hopened.buffered]
      exact fun _ hentry => absurd hentry List.not_mem_nil
    · rw [Group.oks, hmessages]
      exact List.Forall₂.nil
    · rw [hopened.calls]
      rintro i call ⟨⟩
    · rw [hopened.calls]
      rintro i call error ⟨⟩
  | tail _ hstep ih =>
    obtain ⟨⟨older, active, n, added, hok⟩, htold⟩ := ih
    obtain ⟨action, hstep⟩ := hstep
    obtain ⟨hok', htold', -⟩ := hok.step htold hsync (hstep.outcome hmay hok.rest)
    exact ⟨hok', htold'⟩

/-- What holds of a group that was opened, where appends do not wait. -/
theorem Opened.noSyncOk {g₀ : Group} (hopened : Opened inner k n₀ initial g₀) :
    ∃ older active, NoSyncOk inner k n₀ initial g₀ older active n₀ [] := by
  obtain ⟨older, active, hrest, hlog⟩ := hopened.rest
  refine ⟨older, active, hrest, by rw [hlog, List.append_nil], ?_, ?_, rfl, ?_, ?_⟩
  · rw [hopened.buffered]
    exact fun _ hentry => absurd hentry List.not_mem_nil
  · rw [hopened.flushed]
    exact Nat.zero_le _
  · rw [hopened.calls, List.take_nil]
    rfl
  · rw [hopened.calls, hopened.buffered, List.drop_nil]
    rfl

/-- What holds along the runs of a group whose appends do not wait. -/
theorem GroupRuns.noSyncOk (hmay : ∀ o, mayFail o → ¬RollbackOp o) (hnoSync : inner.noSync = true)
    {g₀ : Group} (hopened : Opened inner k n₀ initial g₀) (hruns : GroupRuns mayFail inner g₀ g) :
    ∃ older active n added, NoSyncOk inner k n₀ initial g older active n added := by
  obtain ⟨older, active, hok⟩ := hopened.noSyncOk
  obtain ⟨⟨older', active', n', added, hok', -⟩, -⟩ := hok.runs hmay hnoSync hruns
  exact ⟨older', active', n', added, hok'⟩

/-- The writer rests at every point of a run. -/
theorem GroupRuns.atRest (hmay : ∀ o, mayFail o → ¬RollbackOp o) {g₀ : Group}
    (hopened : Opened inner k n₀ initial g₀) (hruns : GroupRuns mayFail inner g₀ g) :
    ∃ older active n, AtRest inner g.state g.world.dir older active k n := by
  cases hsync : inner.noSync with
  | false =>
    obtain ⟨⟨older, active, n, added, hok⟩, -⟩ := hruns.syncOk hmay hsync hopened
    exact ⟨older, active, n, hok.rest⟩
  | true =>
    obtain ⟨older, active, n, added, hok⟩ := hruns.noSyncOk hmay hsync hopened
    exact ⟨older, active, n, hok.rest⟩

/-- Along a run calls are only added, and answers are final. -/
theorem GroupRuns.answer_mono (hmay : ∀ o, mayFail o → ¬RollbackOp o) {g₀ : Group}
    (hopened : Opened inner k n₀ initial g₀) (hruns : GroupRuns mayFail inner g₀ g)
    (hruns' : GroupRuns mayFail inner g g') :
    g.calls <+: g'.calls ∧ ∀ i answer, g.answer inner i = some answer →
      g'.answer inner i = some answer := by
  induction hruns' with
  | refl => exact ⟨List.prefix_rfl, fun _ _ h => h⟩
  | tail hmid hstep ih =>
    obtain ⟨action, hstep⟩ := hstep
    obtain ⟨older, active, n', hrest⟩ := GroupRuns.atRest hmay hopened (hruns.trans hmid)
    have hgrows := (hstep.outcome hmay hrest).grows
    exact ⟨ih.1.trans hgrows.1, fun i answer h =>
      Group.answer_mono hgrows.1 hgrows.2 (ih.2 i answer h)⟩

end Runs

/-! ### The answers are true -/

/-- **What the answers say of the log**, where appends wait. The log is the initial one and the records
of the calls that were answered with a position, each once and in order; a call that was let in waits
and has no message, or has one message and its answer. -/
structure Truthful (inner : WalWriterInner) (k : Nat) (initial : List WalEntry) (g : Group) : Prop where
  log : ∃ added, readEntriesAfter g.world.dir none = .ok (initial ++ added) ∧
    (initial ++ added).map (fun entry => entry.position.lsn) =
      List.range' (k + 1) (initial ++ added).length ∧
    List.Forall₂ (g.CommittedAs inner) added (g.okAnswers inner)
  answers : ∀ i < g.calls.length,
    (i ∉ g.accepted ∧ ∃ error, g.answer inner i = some (.error error)) ∨
    (i ∈ g.waiting ∧ g.answer inner i = none ∧ ∀ message ∈ g.messages, message.1 ≠ i) ∨
    (i ∉ g.waiting ∧ ∃ message answer,
      (g.messages.filter fun message => message.1 = i) = [(i, message)] ∧
      g.answer inner i = some answer ∧ answer.toOption = message.toOption)

/-- **What the log holds** where appends do not wait: the initial log and the records of the calls
before the last flush that succeeded, each once and in order; those of the calls after it are
buffered. -/
structure LoggedInOrder (inner : WalWriterInner) (n : Nat) (initial : List WalEntry) (g : Group) :
    Prop where
  log : ∃ added, readEntriesAfter g.world.dir none = .ok (initial ++ added) ∧
    added.map WalEntry.record = numbered inner (n + 1) (acceptedCalls (g.calls.take g.flushed)) ∧
    g.state.buffered.map BufferedWalRecord.record =
      numbered inner (n + 1 + added.length) (acceptedCalls (g.calls.drop g.flushed))

/-- The LSNs of a log at rest are contiguous. -/
theorem LogAt.lsns_range {dir : WalDir} {log : List LogSegment} {k n : Nat} (h : LogAt dir log k n) :
    (logEntries log).map (fun entry => entry.position.lsn) =
      List.range' (k + 1) (logEntries log).length := by
  rw [h.lsns, h.length_entries]

/-- What holds of a group whose appends wait makes its answers true. -/
theorem SyncOk.truthful {inner : WalWriterInner} {k n : Nat} {initial added : List WalEntry}
    {g : Group} {older : List LogSegment} {active : LogSegment}
    (h : SyncOk inner k initial g older active n added) (hsync : inner.noSync = false)
    (htold : g.Told) : Truthful inner k initial g := by
  refine ⟨⟨added, ?_, ?_, ?_⟩, fun i hi => ?_⟩
  · rw [h.rest.log.stored.readEntriesAfter, h.log]
  · rw [← h.log]
    exact h.rest.log.lsns_range
  · rw [h.okAnswers_eq hsync htold]
    exact h.committed
  · by_cases haccepted : i ∈ g.accepted
    · have hmem := haccepted
      rw [← h.channels] at hmem
      rcases List.mem_append.mp hmem with hmem | hmem
      · have hnot : i ∉ g.waiting := fun hwaits =>
          (List.nodup_append.mp h.nodup).2.2 i hmem i hwaits rfl
        obtain ⟨⟨_, message⟩, hmessage, rfl⟩ := List.mem_map.mp hmem
        obtain ⟨hfilter, answer, hanswer, hoption⟩ := h.answer_of_message hsync htold hmessage
        exact Or.inr (Or.inr ⟨hnot, message, answer, hfilter, hanswer, hoption⟩)
      · exact Or.inr (Or.inl ⟨hmem, h.answer_of_waiting hsync htold hmem⟩)
    · exact Or.inl ⟨haccepted, htold.answer_of_refused hsync hi haccepted⟩

/-- **Group commit answers every caller truthfully**, whatever fails, as long as the rollbacks succeed.
Where appends wait, the answers say what is in the log at every moment, no answer changes, and a flush
leaves nobody waiting; where they do not wait, the log after the last flush that succeeded is every
record appended before it. -/
theorem groupCommit_truthful {mayFail : SysOp → Prop} (hmay : ∀ o, mayFail o → ¬RollbackOp o)
    {inner : WalWriterInner} {k n : Nat} {initial : List WalEntry} {g₀ g : Group}
    (hopened : Opened inner k n initial g₀) (hruns : GroupRuns mayFail inner g₀ g) :
    (inner.noSync = false → Truthful inner k initial g ∧
      ∀ action g', GroupStep mayFail inner g action g' →
        (∀ i answer, g.answer inner i = some answer → g'.answer inner i = some answer) ∧
        (g'.world = g.world ∨ g'.waiting = []) ∧ (action = .flush → g'.waiting = [])) ∧
    (inner.noSync = true → LoggedInOrder inner n initial g) := by
  constructor
  · intro hsync
    obtain ⟨⟨older, active, n', added, hok⟩, htold⟩ := hruns.syncOk hmay hsync hopened
    refine ⟨hok.truthful hsync htold, fun action g' hstep => ?_⟩
    have houtcome := hstep.outcome hmay hok.rest
    obtain ⟨-, -, hwaiting⟩ := hok.step htold hsync houtcome
    exact ⟨fun i answer => Group.answer_mono houtcome.grows.1 houtcome.grows.2, hwaiting⟩
  · intro hnoSync
    obtain ⟨older, active, n', added, hok⟩ := hruns.noSyncOk hmay hnoSync hopened
    refine ⟨added, ?_, hok.written, ?_⟩
    · rw [hok.rest.log.stored.readEntriesAfter, hok.log]
    · rw [hok.pending, hok.count]
      congr 1
      omega

end Codec

section Sample

open Bytes

attribute [local instance] referenceCodec

/-- A writer of the node `n` that flushes every record. -/
def sampleInner (noSync : Bool) : WalWriterInner where
  nodeId := "n"
  segmentMaxBytes := 4096
  flushInterval := 1
  flushRecords := 1
  noSync := noSync
  minFreeBytes := 0

/-- A group on a new log. -/
def sampleGroup : Group where
  calls := []
  state := ⟨1, segmentHeaderLen, 1, []⟩
  world := sampleWorld [(1, sampleFile 1 1 [])]
  flushed := 0

theorem sampleGroup_opened (inner : WalWriterInner) (hnode : inner.nodeId = "n") :
    Opened inner 0 0 [] sampleGroup := by
  obtain ⟨header, hheader⟩ := serializeSegmentHeader_of_length
    (show (utf8Bytes "n").length ≤ _ by decide +kernel) (UInt64.ofNat 1) 1 0
  have hfile : sampleFile 1 1 [] = .created header := by
    rw [sampleFile, List.flatMap_nil, List.append_nil]
    have hheader' : serializeSegmentHeader (UInt64.ofNat 1) "n" (UInt64.ofNat 1) 0 = .ok header :=
      hheader
    rw [hheader']
    rfl
  have hentries : sampleGroup.world.dir.segments.entries = [(1, .created header)] := by
    rw [← hfile]
    rfl
  rw [← hnode] at hheader
  exact ⟨rfl, rfl, rfl, rfl, [], _, AtRest.fresh inner hheader hentries, rfl⟩

/-- Group commit on one append that is flushed at once. -/
theorem groupCommit_truthful_sample :
    ∃ g, g.calls.length = 1 ∧ Truthful (sampleInner false) 0 [] g := by
  have hnever : ∀ o, (fun _ => none : SysOp → Option IoError) o ≠ none →
      (fun _ => False : SysOp → Prop) o := fun _ h => absurd rfl h
  have hstep := groupStep_exec hnever (sampleInner false) sampleGroup (.append (sampleRecord "a"))
  exact ⟨_, rfl, ((groupCommit_truthful (fun _ h => h.elim) (sampleGroup_opened _ rfl)
    (Relation.ReflTransGen.single ⟨_, hstep⟩)).1 rfl).1⟩

end Sample

end Ingest4x.Wal
