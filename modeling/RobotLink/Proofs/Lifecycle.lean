import Mathlib.Data.List.Nodup
import RobotLink.Proofs.ServerTurns

/-! A server over any run of its operations, with the events it reported, the losses of its clients
in the order in which they happened, and the peers that came. A poll takes in, exchanges, flushes
and parts; each of these keeps the account of who came, who went and why. -/
namespace RobotLink.Server
variable {State : Type}

inductive Operation (State : Type) where
  | poll (arrivals : List Arrival) (d : Dispatcher State)
  | broadcast (frame : Bytes)
  | sendTo (client : ClientId) (frame : Bytes)
  | flush

def readLosses : List (ClientId × Connection) → Dispatcher State → List (ClientId × Option String)
  | [], _ => []
  | (client, c) :: rest, d => (client, (c.poll d .empty).1.reason?) :: readLosses rest (c.poll d .empty).2.2.2

def flushLosses (clients : List (ClientId × Connection)) : List (ClientId × Option String) :=
  clients.map fun (client, c) => (client, c.flushLoss)

def noted (losses : List (ClientId × Option String)) : List (ClientId × String) :=
  losses.filterMap fun (client, reason) => reason.map (client, ·)

def welcome? : ServerEvent → Option (ClientId × String)
  | .connected client peer => some (client, peer)
  | .disconnected _ _ => none

def departure? : ServerEvent → Option ClientId
  | .connected _ _ => none
  | .disconnected client _ => some client

def connected (events : List ServerEvent) : List ClientId := (events.filterMap welcome?).map Prod.fst

def departed (events : List ServerEvent) : List ClientId := events.filterMap departure?

def Parted (events : List ServerEvent) (losses : List (ClientId × String)) : Prop :=
  ∀ (i : Nat) client reason, events[i]? = some (ServerEvent.disconnected client reason) →
    (∃ j < i, ∃ peer, events[j]? = some (ServerEvent.connected client peer)) ∧ losses.lookup client = some reason

structure History where
  server : Server
  events : List ServerEvent
  losses : List (ClientId × String)
  peers : List String

namespace History

def start (limit : UInt32) : History := ⟨.fresh limit, [], [], []⟩

def perform (h : History) : Operation State → History
  | .poll arrivals d =>
    let met := (accept arrivals h.server).2
    let (events, server, _) := h.server.poll arrivals d
    { server, events := h.events ++ events
      losses := h.losses ++ noted (readLosses met.clients d) ++ noted (flushLosses (exchange met d).1.clients)
      peers := h.peers ++ arrivals.map Arrival.peer }
  | .broadcast frame => { h with server := h.server.broadcast frame }
  | .sendTo client frame => { h with server := (h.server.sendTo client frame).2 }
  | .flush => { h with server := h.server.flush, losses := h.losses ++ noted (flushLosses h.server.clients) }

def run (limit : UInt32) (operations : List (Operation State)) : History := operations.foldl perform (start limit)

structure Orderly (h : History) : Prop where
  welcomed : h.events.filterMap welcome? = h.peers.zipIdx.map fun (peer, i) => (⟨i⟩, peer)
  once : (departed h.events).Nodup
  parted : Parted h.events h.losses
  listed : h.server.clientIds = (connected h.events).filter (· ∉ departed h.events)

structure Kept (h : History) : Prop extends Orderly h where
  numbered : h.server.Numbered
  counted : h.server.nextId = h.peers.length
  sound : ∀ entry ∈ h.server.clients, entry.2.Sound
  recorded : ∀ entry ∈ h.server.clients, h.losses.lookup entry.1 = entry.2.lost
  known : ∀ loss ∈ h.losses, loss.1.id < h.server.nextId

theorem keptStart (limit : UInt32) : (start limit).Kept where
  welcomed := rfl
  once := .nil
  parted := nofun
  listed := rfl
  numbered := ⟨.nil, nofun⟩
  counted := rfl
  sound := nofun
  recorded := nofun
  known := nofun

end History

section
variable {α : Type} {key : α → ClientId} {loss : α → Option String} {ts : List α}

theorem notedMember {entry : ClientId × String} (member : entry ∈ noted (ts.map fun t => (key t, loss t))) :
    entry.1 ∈ ts.map key := by
  obtain ⟨_, place, same⟩ := List.mem_filterMap.1 member
  obtain ⟨t, here, rfl⟩ := List.mem_map.1 place
  obtain ⟨reason, _, rfl⟩ := Option.map_eq_some_iff.1 same
  exact List.mem_map_of_mem here

theorem lookupNone {losses : List (ClientId × String)} {client : ClientId}
    (absent : ∀ entry ∈ losses, entry.1 ≠ client) : losses.lookup client = none := by
  refine List.lookup_eq_none_iff.2 fun entry member => ?_
  rw [bne_iff_ne]
  exact (absent entry member).symm

theorem lookupNoted (distinct : (ts.map key).Nodup) {t : α} (member : t ∈ ts) :
    (noted (ts.map fun t => (key t, loss t))).lookup (key t) = loss t := by
  induction ts with
  | nil => cases member
  | cons head rest ih =>
    obtain ⟨fresh, others⟩ := List.nodup_cons.1 distinct
    have first : noted ((head :: rest).map fun t => (key t, loss t)) =
        ((loss head).map (key head, ·)).toList ++ noted (rest.map fun t => (key t, loss t)) := by
      rw [noted, List.map_cons, List.filterMap_cons]
      cases loss head <;> rfl
    -- No other of these has the id, so what is noted for it is noted here or in the rest alone.
    rw [first, List.lookup_append]
    rcases List.mem_cons.1 member with rfl | later
    · have none : (noted (rest.map fun t => (key t, loss t))).lookup (key t) = none :=
        lookupNone fun entry place same => fresh (same ▸ notedMember place)
      rw [none, Option.or_none]
      cases loss t with
      | none => rfl
      | some reason => exact List.lookup_cons_self
    · have none : ((loss head).map (key head, ·)).toList.lookup (key t) = none := by
        refine lookupNone fun entry place same => fresh ?_
        obtain ⟨_, _, rfl⟩ := Option.map_eq_some_iff.1 (Option.mem_toList.1 place)
        have same : key head = key t := same
        exact same ▸ List.mem_map_of_mem later
      rw [none, Option.none_or, ih others later]

end

theorem cameBefore {events : List ServerEvent} {client : ClientId} (member : client ∈ connected events) :
    ∃ j < events.length, ∃ peer, events[j]? = some (ServerEvent.connected client peer) := by
  obtain ⟨⟨_, peer⟩, place, rfl⟩ := List.mem_map.1 member
  obtain ⟨event, here, same⟩ := List.mem_filterMap.1 place
  cases event with
  | disconnected => cases same
  | connected =>
    cases same
    obtain ⟨j, found⟩ := List.mem_iff_getElem?.1 here
    exact ⟨j, (List.getElem?_eq_some_iff.1 found).1, peer, found⟩

theorem connectedAppend (events later : List ServerEvent) :
    connected (events ++ later) = connected events ++ connected later := by
  rw [connected, List.filterMap_append, List.map_append, ← connected, ← connected]

theorem departedAppend (events later : List ServerEvent) :
    departed (events ++ later) = departed events ++ departed later := List.filterMap_append

theorem welcomesWelcome (next : Nat) (arrivals : List Arrival) :
    (welcomes next arrivals).filterMap welcome? =
      ((arrivals.map Arrival.peer).zipIdx next).map fun (peer, i) => (⟨i⟩, peer) := by
  rw [welcomes, List.filterMap_map, List.zipIdx_map, List.map_map, ← List.filterMap_eq_map]
  rfl

theorem welcomesDepart (next : Nat) (arrivals : List Arrival) : departed (welcomes next arrivals) = [] := by
  rw [departed, welcomes, List.filterMap_map]
  exact List.filterMap_eq_nil_iff.2 fun _ _ => rfl

theorem connectedWelcomes (limit : UInt32) (next : Nat) (arrivals : List Arrival) :
    connected (welcomes next arrivals) = (newcomers limit next arrivals).map Prod.fst := by
  rw [connected, welcomesWelcome, List.zipIdx_map, newcomers, List.map_map, List.map_map, List.map_map]
  rfl

theorem farewell {entry : ClientId × Connection} {event : ServerEvent} (h : farewell? entry = some event) :
    entry.2.isOpen = false ∧ event = .disconnected entry.1 (entry.2.lost.getD "connection lost") := by
  obtain ⟨client, c⟩ := entry
  simp only [farewell?] at h
  split at h
  next => cases h
  next closed => exact ⟨Bool.eq_false_iff.2 closed, (Option.some.inj h).symm⟩

theorem farewellsWelcome (clients : List (ClientId × Connection)) :
    (clients.filterMap farewell?).filterMap welcome? = [] := by
  refine List.filterMap_eq_nil_iff.2 fun event member => ?_
  obtain ⟨entry, _, same⟩ := List.mem_filterMap.1 member
  rw [(farewell same).2]
  rfl

theorem farewellsDepart (clients : List (ClientId × Connection)) :
    departed (clients.filterMap farewell?) = (clients.filter fun entry => !entry.2.isOpen).map Prod.fst := by
  induction clients with
  | nil => rfl
  | cons head rest ih =>
    cases isOpen : head.2.isOpen with
    | true =>
      rw [List.filterMap_cons_none (by simp [farewell?, isOpen]), List.filter_cons_of_neg (by simp [isOpen]), ih]
    | false =>
      rw [List.filterMap_cons_some (by simp only [farewell?, isOpen]; rfl), List.filter_cons_of_pos (by simp [isOpen]),
        List.map_cons, ← ih]
      rfl

theorem stayingIds {clients : List (ClientId × Connection)} (distinct : (clients.map Prod.fst).Nodup) :
    (clients.filter fun entry => entry.2.isOpen).map Prod.fst =
      (clients.map Prod.fst).filter (· ∉ departed (clients.filterMap farewell?)) := by
  rw [List.filter_map]
  refine congrArg (List.map Prod.fst) (List.filter_congr fun entry member => ?_)
  rw [farewellsDepart, Function.comp_apply]
  cases isOpen : entry.2.isOpen with
  | true =>
    symm
    rw [decide_eq_true_eq]
    intro gone
    obtain ⟨other, place, same⟩ := List.mem_map.1 gone
    obtain ⟨there, closed⟩ := List.mem_filter.1 place
    rw [List.inj_on_of_nodup_map distinct there member same, isOpen] at closed
    cases closed
  | false =>
    symm
    rw [decide_eq_false_iff_not, not_not]
    exact List.mem_map_of_mem (List.mem_filter.2 ⟨member, by rw [isOpen]; rfl⟩)

theorem Parted.append {events new : List ServerEvent} {losses : List (ClientId × String)} (old : Parted events losses)
    (each : ∀ client reason, .disconnected client reason ∈ new →
      client ∈ connected events ∧ losses.lookup client = some reason) : Parted (events ++ new) losses := by
  intro i client reason found
  by_cases earlier : i < events.length
  · rw [List.getElem?_append_left earlier] at found
    obtain ⟨⟨j, less, peer, came⟩, lost⟩ := old i client reason found
    refine ⟨⟨j, less, peer, ?_⟩, lost⟩
    rw [List.getElem?_append_left (Nat.lt_trans less earlier), came]
  · have later := Nat.le_of_not_lt earlier
    rw [List.getElem?_append_right later] at found
    obtain ⟨among, lost⟩ := each client reason (List.mem_of_getElem? found)
    obtain ⟨j, less, peer, came⟩ := cameBefore among
    refine ⟨⟨j, Nat.lt_of_lt_of_le less later, peer, ?_⟩, lost⟩
    rw [List.getElem?_append_left less, came]

namespace History

def accepted (h : History) (arrivals : List Arrival) : History :=
  { h with
    server := (accept arrivals h.server).2, events := h.events ++ (accept arrivals h.server).1
    peers := h.peers ++ arrivals.map Arrival.peer }

def exchanged (h : History) (d : Dispatcher State) : History :=
  { h with server := (exchange h.server d).1, losses := h.losses ++ noted (readLosses h.server.clients d) }

def flushed (h : History) : History :=
  { h with server := h.server.flush, losses := h.losses ++ noted (flushLosses h.server.clients) }

def withoutLost (h : History) : History :=
  { h with
    server := { h.server with clients := h.server.clients.filter fun entry => entry.2.isOpen }
    events := h.events ++ h.server.clients.filterMap farewell? }

theorem performPoll (h : History) (arrivals : List Arrival) (d : Dispatcher State) :
    h.perform (.poll arrivals d) = ((h.accepted arrivals).exchanged d).flushed.withoutLost := by
  simp only [perform, pollExchange, accepted, exchanged, flushed, withoutLost, List.append_assoc]

section
variable {h : History}

theorem connectedIds (orderly : h.Orderly) : connected h.events = (List.range h.peers.length).map ClientId.mk := by
  rw [connected, orderly.welcomed, List.map_map, List.range_eq_range', ← List.zipIdx_map_snd 0 h.peers, List.map_map]
  rfl

theorem departedBelow (orderly : h.Orderly) {client : ClientId} (member : client ∈ departed h.events) :
    client.id < h.peers.length := by
  obtain ⟨event, place, same⟩ := List.mem_filterMap.1 member
  cases event with
  | connected => cases same
  | disconnected _ reason =>
    cases same
    obtain ⟨i, found⟩ := List.mem_iff_getElem?.1 place
    obtain ⟨⟨j, _, peer, came⟩, _⟩ := orderly.parted i client reason found
    have welcomed : (client, peer) ∈ h.events.filterMap welcome? :=
      List.mem_filterMap.2 ⟨_, List.mem_of_getElem? came, rfl⟩
    have among : client ∈ connected h.events := List.mem_map.2 ⟨_, welcomed, rfl⟩
    rw [connectedIds orderly] at among
    obtain ⟨n, below, rfl⟩ := List.mem_map.1 among
    exact List.mem_range.1 below

theorem Kept.changed {α : Type} {ts : List α} (kept : h.Kept) (key : α → ClientId) (before after : α → Connection)
    (loss : α → Option String) (clients : h.server.clients = ts.map fun t => (key t, before t))
    (each : ∀ t, (before t).Sound → (after t).Sound ∧ (after t).lost = (before t).lost.or (loss t)) :
    Kept { h with
      server := { h.server with clients := ts.map fun t => (key t, after t) }
      losses := h.losses ++ noted (ts.map fun t => (key t, loss t)) } := by
  have ids : ts.map key = h.server.clientIds := by rw [clientIds, clients, List.map_map]; rfl
  have same : (ts.map fun t => (key t, after t)).map Prod.fst = h.server.clientIds := by
    rw [← ids, List.map_map]
    rfl
  have entry (t : α) (member : t ∈ ts) : (key t, before t) ∈ h.server.clients :=
    clients ▸ List.mem_map_of_mem (f := fun t => (key t, before t)) member
  refine ⟨⟨kept.welcomed, kept.once, fun i client reason found => ?_, same.trans kept.listed⟩,
    ⟨?_, ?_⟩, kept.counted, ?_, ?_, ?_⟩
  · obtain ⟨came, first⟩ := kept.parted i client reason found
    refine ⟨came, ?_⟩
    rw [List.lookup_append, first]
    rfl
  · rw [clientIds, same]
    exact kept.numbered.ascending
  · rw [clientIds, same]
    exact kept.numbered.below
  · refine List.forall_mem_map.2 fun t member => ?_
    exact (each t (kept.sound _ (entry t member))).1
  · refine List.forall_mem_map.2 fun t member => ?_
    rw [List.lookup_append, lookupNoted (ids ▸ kept.numbered.distinct) member, kept.recorded _ (entry t member)]
    exact (each t (kept.sound _ (entry t member))).2.symm
  · refine List.forall_mem_append.2 ⟨kept.known, fun loss member => ?_⟩
    exact kept.numbered.below _ (ids ▸ notedMember member)

theorem readTurns {clients : List (ClientId × Connection)} (resting : ∀ entry ∈ clients, entry.2.Resting)
    (d : Dispatcher State) :
    readLosses clients d =
      (turns clients d).map fun t => (t.client, (t.connection.poll t.dispatcher .empty).1.reason?) := by
  induction clients generalizing d with
  | nil => rfl
  | cons head rest ih =>
    obtain ⟨here, others⟩ := List.forall_mem_cons.1 resting
    have delivers := Connection.pollDelivers here d .empty
    simp only [readLosses, turns, List.map_cons, delivers, ih others]

theorem Kept.exchanged (kept : h.Kept) (d : Dispatcher State) : (h.exchanged d).Kept := by
  have resting : ∀ entry ∈ h.server.clients, entry.2.Resting := fun entry member => (kept.sound entry member).resting
  rw [History.exchanged, exchangeTurns resting, readTurns resting]
  refine kept.changed Turn.client Turn.connection _ _ (turnsClients _ d).symm fun t sound => ?_
  obtain ⟨polled, lost⟩ := sound.polled t.dispatcher .empty
  obtain ⟨queued, same⟩ := polled.queued (t.queued.replies ++ broadcastsOf (turns h.server.clients d))
  exact ⟨queued, same.trans lost⟩

theorem Kept.flushed (kept : h.Kept) : h.flushed.Kept :=
  kept.changed Prod.fst Prod.snd _ _ (List.map_id _).symm fun _ sound => sound.flushed

theorem Kept.queued (kept : h.Kept) {after : ClientId × Connection → Connection}
    (each : ∀ entry, entry.2.Sound → (after entry).Sound ∧ (after entry).lost = entry.2.lost) :
    Kept { h with server := { h.server with clients := h.server.clients.map fun entry => (entry.1, after entry) } } := by
  have changed := kept.changed Prod.fst Prod.snd after (fun _ => none) (List.map_id _).symm
    fun entry sound => by rw [Option.or_none]; exact each entry sound
  have none (clients : List (ClientId × Connection)) : noted (clients.map fun entry => (entry.1, none)) = [] := by
    rw [noted, List.filterMap_map]
    exact List.filterMap_eq_nil_iff.2 fun _ _ => rfl
  rw [none, List.append_nil] at changed
  exact changed

theorem Kept.accepted (kept : h.Kept) (arrivals : List Arrival) : (h.accepted arrivals).Kept := by
  have numbered := kept.numbered.accepted arrivals
  unfold History.accepted
  rw [acceptAll] at numbered ⊢
  refine ⟨⟨?_, ?_, kept.parted.append ?_, ?_⟩, numbered, ?_, ?_, ?_, ?_⟩
  · rw [List.filterMap_append, kept.welcomed, welcomesWelcome, List.zipIdx_append, List.map_append, Nat.zero_add,
      ← kept.counted]
  · rw [departedAppend, welcomesDepart, List.append_nil]
    exact kept.once
  · intro client reason member
    have gone : client ∈ departed (welcomes h.server.nextId arrivals) := List.mem_filterMap.2 ⟨_, member, rfl⟩
    rw [welcomesDepart] at gone
    cases gone
  · rw [connectedAppend, departedAppend, welcomesDepart, List.append_nil, List.filter_append, ← kept.listed,
      connectedWelcomes h.server.limit, clientIds, List.map_append, List.filter_eq_self.2]
    · rfl
    · intro client member
      obtain ⟨entry, place, rfl⟩ := List.mem_map.1 member
      rw [decide_eq_true_eq]
      intro gone
      have below := departedBelow kept.toOrderly gone
      rw [← kept.counted] at below
      exact absurd (newcomer place).1 (Nat.not_le.2 below)
  · change _ + _ = (h.peers ++ _).length
    rw [List.length_append, List.length_map, kept.counted]
  · refine List.forall_mem_append.2 ⟨kept.sound, fun entry member => ?_⟩
    obtain ⟨_, arrival, _, fresh⟩ := newcomer member
    rw [fresh]
    exact Connection.soundFresh ..
  · refine List.forall_mem_append.2 ⟨kept.recorded, fun entry member => ?_⟩
    obtain ⟨later, arrival, _, fresh⟩ := newcomer member
    rw [fresh]
    refine lookupNone fun loss place same => ?_
    have below := kept.known loss place
    rw [same] at below
    exact absurd below (Nat.not_lt.2 later)
  · exact fun loss member => Nat.lt_of_lt_of_le (kept.known loss member) (Nat.le_add_right _ _)

theorem Kept.withoutLost (kept : h.Kept) : h.withoutLost.Kept := by
  have gone : ∀ client ∈ departed (h.server.clients.filterMap farewell?), client ∈ h.server.clientIds := by
    rw [farewellsDepart]
    exact fun client member => (List.filter_sublist.map Prod.fst).subset member
  have ids := stayingIds kept.numbered.distinct
  refine ⟨⟨?_, ?_, kept.parted.append ?_, ?_⟩, ⟨?_, ?_⟩, kept.counted, ?_, ?_, kept.known⟩
  · rw [History.withoutLost, List.filterMap_append, farewellsWelcome, List.append_nil]
    exact kept.welcomed
  · rw [History.withoutLost, departedAppend]
    refine kept.once.append ?_ fun client before now => ?_
    · rw [farewellsDepart]
      exact kept.numbered.distinct.sublist (List.filter_sublist.map Prod.fst)
    · have listed := gone client now
      rw [kept.listed, List.mem_filter, decide_eq_true_eq] at listed
      exact listed.2 before
  · intro client reason member
    obtain ⟨entry, place, same⟩ := List.mem_filterMap.1 member
    obtain ⟨closed, event⟩ := farewell same
    obtain ⟨rfl, rfl⟩ := ServerEvent.disconnected.inj event
    obtain ⟨cause, lost⟩ := (kept.sound entry place).closedFor closed
    have listed : entry.1 ∈ h.server.clientIds := List.mem_map_of_mem place
    rw [kept.listed] at listed
    refine ⟨(List.mem_filter.1 listed).1, ?_⟩
    rw [kept.recorded entry place, lost]
    rfl
  · have none : connected (h.server.clients.filterMap farewell?) = [] := by rw [connected, farewellsWelcome]; rfl
    rw [History.withoutLost, connectedAppend, departedAppend, none, List.append_nil]
    -- Of those listed before, the ones whose departure is not among the new events.
    refine ids.trans ?_
    rw [← clientIds, kept.listed, List.filter_filter]
    refine List.filter_congr fun client _ => ?_
    simp only [List.mem_append, not_or, Bool.decide_and, Bool.and_comm]
  · exact kept.numbered.ascending.sublist (List.filter_sublist.map Prod.fst)
  · exact fun client member => kept.numbered.below client ((List.filter_sublist.map Prod.fst).subset member)
  · exact fun entry member => kept.sound entry (List.mem_filter.1 member).1
  · exact fun entry member => kept.recorded entry (List.mem_filter.1 member).1

theorem Kept.performed (kept : h.Kept) (operation : Operation State) : (h.perform operation).Kept := by
  cases operation with
  | poll arrivals d =>
    rw [performPoll]
    exact ((kept.accepted arrivals).exchanged d).flushed.withoutLost
  | broadcast frame => exact kept.queued fun entry sound => sound.queued [frame]
  | sendTo client frame =>
    simp only [perform, sendTo]
    split
    next =>
      refine kept.queued fun entry sound => ?_
      by_cases addressed : entry.1 = client
      · simp only [if_pos addressed]
        exact sound.queued [frame]
      · simp only [if_neg addressed]
        exact ⟨sound, trivial⟩
    next => exact kept
  | flush => exact kept.flushed

theorem keptRun (limit : UInt32) (operations : List (Operation State)) : (run limit operations).Kept :=
  List.foldlRecOn operations perform (keptStart limit) fun _ kept operation _ => kept.performed operation

/-- Ids only ever grow, every client comes once and goes at most once, for the first of its losses,
and the clients of the server are those who have not gone: all of them open after a poll. -/
theorem clientsLiveOnce (limit : UInt32) (operations : List (Operation State)) :
    let h := run limit operations
    h.Orderly ∧ (connected h.events).Pairwise (fun a b => a.id < b.id) ∧
      (∀ arrivals (d : Dispatcher State), ∀ entry ∈ (h.perform (.poll arrivals d)).server.clients, entry.2.isOpen) ∧
      ∀ client frame, (h.server.sendTo client frame).1 ↔ ∃ c, (client, c) ∈ h.server.clients ∧ c.isOpen := by
  intro h
  have kept : h.Kept := keptRun limit operations
  refine ⟨kept.toOrderly, ?_, fun arrivals d entry member => ?_, fun client frame => ?_⟩
  · rw [connectedIds kept.toOrderly]
    exact List.pairwise_map.2 List.pairwise_lt_range
  · rw [performPoll] at member
    exact (List.mem_filter.1 member).2
  · have listed : h.server.clients.any (fun (other, c) => other = client && c.isOpen) ↔
        ∃ c, (client, c) ∈ h.server.clients ∧ c.isOpen := by
      simp [List.any_eq_true]
    rw [← listed, sendTo]
    split
    next yes => exact iff_of_true rfl yes
    next no => exact iff_of_false nofun no

end

end History

end RobotLink.Server
