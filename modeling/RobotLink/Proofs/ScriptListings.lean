import Mathlib
import RobotLink.Proofs.HandlerCalls
import RobotLink.Proofs.ServerRounds
import RobotLink.ScriptStore

/-! The list of scripts as clients know it. A reply that lists them may be out of date within its
own poll, but then a broadcast of the same poll stands behind it, so that the last list queued to
a client is the one in force. -/
namespace RobotLink

def Message.isListing (frame : Bytes) : Bool := frame[Frame.prefixLength]? = some Opcode.luaScripts.code

theorem Message.isListingEncode (m : Message) : isListing m.encode = decide (m.opcode = .luaScripts) := by
  have four : (Payload.putCount m.frame.bodyLength).length = Frame.prefixLength := Bytes.lengthOfNat 4 _
  have code : m.encode[Frame.prefixLength]? = some m.opcode.code := by
    rw [encode, Frame.encode, ← four, List.getElem?_append_right (Nat.le_refl _), Nat.sub_self]
    rfl
  have same : m.opcode.code = Opcode.luaScripts.code ↔ m.opcode = .luaScripts := by
    refine ⟨fun equal => ?_, fun equal => congrArg _ equal⟩
    have found := Opcode.ofCodeCode m.opcode
    rw [equal, Opcode.ofCodeCode] at found
    exact (Option.some.inj found).symm
  simp only [isListing, code, Option.some.injEq, same]

namespace ScriptStore
open Message (isListing)

def lastListing (frames : List Bytes) : Option Bytes := (frames.filter isListing).getLast?

theorem lastListingAppend (frames more : List Bytes) :
    lastListing (frames ++ more) = (lastListing more).or (lastListing frames) := by
  rw [lastListing, List.filter_append, List.getLast?_append]
  rfl

theorem lastListingMem {frames : List Bytes} {frame : Bytes} (h : lastListing frames = some frame) :
    frame ∈ frames ∧ isListing frame :=
  List.mem_filter.1 (List.mem_of_getLast? h)

structure Tells (before : ScriptStore) (queued : Outbox) (after : ScriptStore) : Prop where
  announced : ∀ frame, lastListing queued.broadcasts = some frame → frame = after.listing.encode
  quiet : lastListing queued.broadcasts = none → after.names = before.names ∧
    ∀ frame ∈ queued.replies, isListing frame → frame = before.listing.encode

theorem listingOfNames {s t : ScriptStore} (same : s.names = t.names) : s.listing = t.listing := by
  rw [listing, listing, same]

section
variable {before between after : ScriptStore} {queued later : Outbox}

theorem tellsNone (s : ScriptStore) : Tells s .empty s :=
  ⟨nofun, fun _ => ⟨rfl, nofun⟩⟩

theorem Tells.append (h : Tells before queued between) (next : Tells between later after) :
    Tells before (queued ++ later) after := by
  have broadcasts : lastListing (queued ++ later).broadcasts =
      (lastListing later.broadcasts).or (lastListing queued.broadcasts) := lastListingAppend _ _
  cases last : lastListing later.broadcasts with
  | some frame =>
    rw [last, Option.some_or] at broadcasts
    refine ⟨fun other found => ?_, fun none => ?_⟩
    · rw [broadcasts] at found
      cases found
      exact next.announced frame last
    · rw [broadcasts] at none
      cases none
  | none =>
    obtain ⟨same, replied⟩ := next.quiet last
    rw [last, Option.none_or] at broadcasts
    refine ⟨fun frame found => ?_, fun none => ?_⟩
    · rw [broadcasts] at found
      rw [h.announced frame found, listingOfNames same]
    · rw [broadcasts] at none
      obtain ⟨unchanged, repliedFirst⟩ := h.quiet none
      refine ⟨same.trans unchanged, fun frame member listing => ?_⟩
      rcases List.mem_append.1 member with early | late
      · exact repliedFirst frame early listing
      · rw [replied frame late listing, listingOfNames unchanged]

theorem removeAbsent {s : ScriptStore} {name : String} (absent : s.contains name = false) : s.remove name = s := by
  have missing : s.entries.lookup name = none := by
    rw [contains, get?] at absent
    simpa using absent
  have kept : s.entries.filter (fun entry => entry.1 ≠ name) = s.entries := by
    refine List.filter_eq_self.2 fun entry member => ?_
    have differs : name ≠ entry.1 := by simpa using List.lookup_eq_none_iff.1 missing entry member
    exact decide_eq_true differs.symm
  rw [remove, kept]

theorem tellsAnnounced (before after : ScriptStore) (replies : List Bytes) :
    Tells before ⟨replies, [after.listing.encode]⟩ after := by
  have yes : isListing after.listing.encode := by rw [Message.isListingEncode]; rfl
  have last : lastListing [after.listing.encode] = some after.listing.encode := by
    rw [lastListing, List.filter_cons_of_pos yes]
    rfl
  refine ⟨fun frame found => ?_, fun none => ?_⟩
  · rw [last] at found
    exact (Option.some.inj found).symm
  · rw [last] at none
    cases none

theorem tellsReplied {s : ScriptStore} {replies : List Message}
    (current : ∀ m ∈ replies, m.opcode = .luaScripts → m = s.listing) :
    Tells s ⟨replies.map Message.encode, []⟩ s := by
  refine ⟨nofun, fun _ => ⟨rfl, fun frame member listing => ?_⟩⟩
  obtain ⟨m, replied, rfl⟩ := List.mem_map.1 member
  rw [Message.isListingEncode, decide_eq_true_eq] at listing
  rw [current m replied listing]

theorem repliesCurrent (s : ScriptStore) (m : Message) :
    ∀ reply ∈ s.replies m, reply.opcode = .luaScripts → reply = s.listing := by
  unfold replies
  split
  · simp
  · simp [refusal, Message.opcode]
  · simp [refusal, Message.opcode]
  · simp [refusal, Message.opcode]
  · split <;> simp [Message.opcode]
  · simp

theorem applyTells (m : Message) (s : ScriptStore) : Tells s (s.queued m) (s.apply m) := by
  cases m with
  | uploadLua name script | uploadRunLua name script => exact tellsAnnounced s (s.upload name script) _
  | removeServerLua name =>
    cases known : s.contains name with
    | true =>
      simp only [queued, announcements, known, if_true]
      exact tellsAnnounced s (s.remove name) _
    | false =>
      simp only [queued, announcements, known, Bool.false_eq_true, if_false, apply, removeAbsent known]
      exact tellsReplied (s.repliesCurrent _)
  | _ => exact tellsReplied (s.repliesCurrent _)

end

section
variable {State : Type} {part : State → ScriptStore} {replace : ScriptStore → State → State} {d : Dispatcher State}

def HandlerTells (part : State → ScriptStore) (handler : Handler State) : Prop :=
  ∀ before m s out, Tells before out (part s) → Tells before (handler m s out).1 (part (handler m s out).2)

/-- Leaves the scripts alone, queues no list of them and takes none out of the outbox. -/
def Bystander (part : State → ScriptStore) (handler : Handler State) : Prop :=
  ∀ m s out, part (handler m s out).2 = part s ∧
    (handler m s out).1.replies.filter isListing = out.replies.filter isListing ∧
    (handler m s out).1.broadcasts.filter isListing = out.broadcasts.filter isListing

theorem Bystander.tells {handler : Handler State} (h : Bystander part handler) : HandlerTells part handler := by
  intro before m s out tells
  obtain ⟨same, replies, broadcasts⟩ := h m s out
  have last : lastListing (handler m s out).1.broadcasts = lastListing out.broadcasts := by
    rw [lastListing, broadcasts, lastListing]
  rw [same]
  refine ⟨fun frame found => tells.announced frame (last ▸ found), fun none => ?_⟩
  obtain ⟨names, replied⟩ := tells.quiet (last ▸ none)
  refine ⟨names, fun frame member listing => ?_⟩
  have kept : frame ∈ out.replies.filter isListing := replies ▸ List.mem_filter.2 ⟨member, listing⟩
  exact replied frame (List.mem_filter.1 kept).1 listing

theorem handlerTells (lens : ∀ scripts s, part (replace scripts s) = scripts) :
    HandlerTells part (handle.within part replace) := by
  intro before m s out tells
  have applied := tells.append (applyTells m (part s))
  rw [← lens ((part s).apply m) s] at applied
  exact applied

inductive Serves (part : State → ScriptStore) (replace : ScriptStore → State → State) : Dispatcher State → Prop
  | install {d : Dispatcher State} (handlers : ∀ entry ∈ d.handlers, Bystander part entry.2)
      (catchAll : ∀ handler ∈ d.catchAll, Bystander part handler) : Serves part replace (install part replace d)
  | register {d : Dispatcher State} {op : Opcode} {handler : Handler State} (serves : Serves part replace d)
      (bystander : Bystander part handler) : Serves part replace (d.register op handler)
  | registerCatchAll {d : Dispatcher State} {handler : Handler State} (serves : Serves part replace d)
      (bystander : Bystander part handler) : Serves part replace (d.registerCatchAll handler)

structure AllTell (part : State → ScriptStore) (d : Dispatcher State) : Prop where
  handlers : ∀ entry ∈ d.handlers, HandlerTells part entry.2
  catchAll : ∀ handler ∈ d.catchAll, HandlerTells part handler

theorem AllTell.registered {op : Opcode} {handler : Handler State} (h : AllTell part d)
    (tells : HandlerTells part handler) : AllTell part (d.register op handler) :=
  ⟨List.forall_mem_append.2 ⟨h.handlers, List.forall_mem_singleton.2 tells⟩, h.catchAll⟩

theorem AllTell.registeredAll {handler : Handler State} {ops : List Opcode} (h : AllTell part d)
    (tells : HandlerTells part handler) : AllTell part (ops.foldl (fun d op => d.register op handler) d) := by
  induction ops generalizing d with
  | nil => exact h
  | cons op rest ih => exact ih (h.registered tells)

theorem Serves.tells (h : Serves part replace d) (lens : ∀ scripts s, part (replace scripts s) = scripts) :
    AllTell part d := by
  induction h with
  | install handlers catchAll =>
    have before : AllTell part _ := ⟨fun entry member => (handlers entry member).tells,
      fun handler member => (catchAll handler member).tells⟩
    exact before.registeredAll (handlerTells lens)
  | register _ bystander before => exact before.registered bystander.tells
  | registerCatchAll _ bystander before =>
    exact ⟨before.handlers, List.forall_mem_append.2 ⟨before.catchAll, List.forall_mem_singleton.2 bystander.tells⟩⟩

theorem callTells {handlers : List (Handler State)} (tells : ∀ handler ∈ handlers, HandlerTells part handler)
    {before : ScriptStore} (m : Message) {s : State} {out : Outbox} (here : Tells before out (part s)) :
    Tells before (Dispatcher.call m handlers s out).1 (part (Dispatcher.call m handlers s out).2) := by
  induction handlers generalizing s out with
  | nil => exact here
  | cons handler rest ih =>
    obtain ⟨first, others⟩ := List.forall_mem_cons.1 tells
    exact ih others (first before m s out here)

theorem keepsTelling (part : State → ScriptStore) (before : ScriptStore) :
    Dispatcher.Keeps fun out d => AllTell part d ∧ Tells before out (part d.state) := by
  rintro d out frame ⟨h, here⟩
  unfold Dispatcher.dispatch
  split
  next => exact ⟨h, here⟩
  next op _ =>
    split
    next => exact ⟨h, here⟩
    next m rest _ =>
      exact ⟨⟨h.handlers, h.catchAll⟩, callTells (Dispatcher.routeForall h.handlers h.catchAll op) m here⟩

theorem tracedTells (part : State → ScriptStore) :
    Server.Traced fun d queued e =>
      AllTell part d → AllTell part e ∧ Tells (part d.state) queued (part e.state) where
  none d h := ⟨h, tellsNone _⟩
  append first later h := by
    obtain ⟨between, tells⟩ := first h
    obtain ⟨after, more⟩ := later between
    exact ⟨after, tells.append more⟩
  visit c d h := (keepsTelling part (part d.state)).poll c ⟨h, tellsNone _⟩

end

end ScriptStore

namespace Server.Run
open ScriptStore (lastListing lastListingAppend AllTell Serves)
variable {State : Type} {part : State → ScriptStore} {replace : ScriptStore → State → State}

structure Listed (part : State → ScriptStore) (r : Run State) : Prop where
  accounted : r.Accounted
  tells : AllTell part r.dispatcher
  listed : ∀ entry ∈ r.server.clients, ∀ frame, lastListing (r.queuedTo entry.1) = some frame →
    frame = (part r.dispatcher.state).listing.encode

theorem Listed.onRound {r : Run State} {arrivals : List Arrival} (h : Listed part r)
    (unwritten : ∀ arrival ∈ arrivals, arrival.stream.written = []) : Listed part (r.round arrivals) := by
  obtain ⟨tells, whole⟩ := roundTraced (ScriptStore.tracedTells part) r arrivals h.tells
  refine ⟨h.accounted.onRound unwritten, tells, ?_⟩
  rintro ⟨client, c⟩ member frame found
  obtain ⟨v, visited, served, _, queued⟩ := roundClient h.accounted.numbered member
  obtain ⟨_, _, _, origin⟩ := roundBefore h.accounted.known visited
  have same : v.client = client := congrArg Prod.fst served
  rw [queued, lastListingAppend, Visit.frames, lastListingAppend] at found
  rw [same] at origin
  cases announced : lastListing (broadcasts (r.visits arrivals).1) with
  | some late =>
    rw [announced] at found
    cases found
    exact whole.announced frame announced
  | none =>
    -- No list was broadcast in this poll, so the names are those of before it.
    obtain ⟨unchanged, replied⟩ := whole.quiet announced
    rw [announced, Option.none_or] at found
    rw [ScriptStore.listingOfNames unchanged]
    cases answered : lastListing v.queued.replies with
    | some reply =>
      rw [answered] at found
      cases found
      obtain ⟨place, listing⟩ := ScriptStore.lastListingMem answered
      exact replied frame (List.mem_flatMap.2 ⟨v, visited, place⟩) listing
    | none =>
      rw [answered, Option.none_or] at found
      rcases origin with old | ⟨new, _⟩
      · exact h.listed _ old frame found
      · rw [new] at found
        cases found

/-- After every poll, the last list of scripts that an open client was ever queued is the one in
force, and what was queued to it is what was written to it and what is pending. -/
theorem listingsCurrent {d : Dispatcher State} (lens : ∀ scripts s, part (replace scripts s) = scripts)
    (serves : Serves part replace d) (limit : UInt32) {rounds : List (List Arrival)}
    (unwritten : ∀ arrivals ∈ rounds, ∀ arrival ∈ arrivals, arrival.stream.written = []) :
    let r := rounds.foldl round (start limit d)
    ∀ entry ∈ r.server.clients, entry.2.isOpen ∧
      entry.2.stream.written ++ entry.2.pending.toBytes = (r.queuedTo entry.1).flatten ∧
      ∀ frame, lastListing (r.queuedTo entry.1) = some frame →
        frame = (Message.luaScripts (part r.dispatcher.state).names).encode := by
  have first : Listed part (start limit d) := ⟨accountedStart limit d, serves.tells lens, nofun⟩
  have h : Listed part (rounds.foldl round (start limit d)) :=
    List.foldlRecOn rounds round first fun r h arrivals member => h.onRound (unwritten arrivals member)
  exact fun entry member => ⟨h.accounted.isOpen entry member, h.accounted.bytes entry member, h.listed entry member⟩

theorem uploadsOutliveUploader :
    let d := ScriptStore.install id (fun scripts _ => scripts) (Dispatcher.fresh .standard ScriptStore.empty)
    let listed := Message.getScripts.encode
    let stream (reads : List ReadResult) : Stream := ⟨reads, [.accept 9, .wouldBlock], [], []⟩
    let first := stream [.data (listed ++ (Message.uploadLua "b.lua" [1]).encode), .wouldBlock, .data listed]
    let second := stream [.data (Message.uploadLua "a.lua" [2]).encode, .endOfStream]
    let third := stream [.interrupted, .data (listed.take 3)]
    let rounds := [[⟨first, "first"⟩, ⟨second, "second"⟩], [⟨third, "third"⟩], []]
    let r := rounds.foldl round (start 64 d)
    Serves id (fun scripts _ => scripts) d ∧
      (∀ arrivals ∈ rounds, ∀ arrival ∈ arrivals, arrival.stream.written = []) ∧
      r.server.clientIds = [⟨0⟩, ⟨2⟩] ∧
      lastListing (r.queuedTo ⟨0⟩) = some (Message.luaScripts ["a.lua", "b.lua"]).encode := by
  intro d listed stream first second third rounds r
  have serves : Serves id (fun scripts _ => scripts) d := .install nofun nofun
  have unwritten : ∀ arrivals ∈ rounds, ∀ arrival ∈ arrivals, arrival.stream.written = [] := by
    simp [rounds, first, second, third, stream]
  have ids : r.server.clientIds = [⟨0⟩, ⟨2⟩] := by cbv
  have names : r.dispatcher.state.names = ["a.lua", "b.lua"] := by cbv
  obtain ⟨entry, member, same⟩ : ∃ entry ∈ r.server.clients, entry.1 = ⟨0⟩ := by
    refine List.mem_map.1 ?_
    change _ ∈ r.server.clientIds
    rw [ids]
    exact List.mem_cons_self
  obtain ⟨frame, found⟩ : ∃ frame, lastListing (r.queuedTo ⟨0⟩) = some frame :=
    Option.isSome_iff_exists.1 (by cbv)
  obtain ⟨_, _, current⟩ := listingsCurrent (fun _ _ => rfl) serves 64 unwritten entry member
  have listing := current frame (same ▸ found)
  rw [found, listing]
  exact ⟨serves, unwritten, ids, by rw [← names]; rfl⟩

end Server.Run

end RobotLink
