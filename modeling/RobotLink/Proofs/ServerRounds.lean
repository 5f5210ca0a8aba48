import RobotLink.Proofs.Connections
import RobotLink.Server

/-! A server poll by poll. Each poll visits the clients in order and then queues to every open one
its own replies and all broadcasts; what a client was ever queued is what was written to it and
what is still pending. -/
namespace RobotLink.Server
variable {State : Type}

structure Visit where
  client : ClientId
  connection : Connection
  queued : Outbox
  deriving DecidableEq, Repr

def visits : List (ClientId × Connection) → Dispatcher State → List Visit × Dispatcher State
  | [], d => ([], d)
  | (client, c) :: rest, d =>
    let (_, connection, queued, d) := c.poll d .empty
    let (later, d) := visits rest d
    (⟨client, connection, queued⟩ :: later, d)

def broadcasts (vs : List Visit) : List Bytes := vs.flatMap (·.queued.broadcasts)

namespace Visit

def frames (all : List Bytes) (v : Visit) : List Bytes := v.queued.replies ++ all

def served (all : List Bytes) (v : Visit) : ClientId × Connection :=
  (v.client, flushOne ((v.frames all).foldl Connection.queue v.connection))

end Visit

section
variable {clients : List (ClientId × Connection)} {d : Dispatcher State}

theorem visitsClients (clients : List (ClientId × Connection)) (d : Dispatcher State) :
    (visits clients d).1.map Visit.client = clients.map Prod.fst := by
  induction clients generalizing d with
  | nil => rfl
  | cons head rest ih =>
    simp only [visits, List.map_cons, ih]

theorem visitPolled {v : Visit} (member : v ∈ (visits clients d).1) :
    ∃ (c : Connection) (e : Dispatcher State), (v.client, c) ∈ clients ∧ (c.poll e .empty).2.1 = v.connection := by
  induction clients generalizing d with
  | nil => cases member
  | cons head rest ih =>
    rcases List.mem_cons.1 member with rfl | later
    · exact ⟨head.2, d, List.mem_cons_self, rfl⟩
    · obtain ⟨c, e, place, polled⟩ := ih later
      exact ⟨c, e, List.mem_cons_of_mem _ place, polled⟩

structure Traced (P : Dispatcher State → Outbox → Dispatcher State → Prop) : Prop where
  none : ∀ d, P d .empty d
  append : ∀ {d e f first later}, P d first e → P e later f → P d (first ++ later) f
  visit : ∀ (c : Connection) d, P d (c.poll d .empty).2.2.1 (c.poll d .empty).2.2.2

theorem visitsTraced {P : Dispatcher State → Outbox → Dispatcher State → Prop} (h : Traced P)
    (clients : List (ClientId × Connection)) (d : Dispatcher State) :
    P d ⟨(visits clients d).1.flatMap (·.queued.replies), broadcasts (visits clients d).1⟩ (visits clients d).2 := by
  induction clients generalizing d with
  | nil => exact h.none d
  | cons head rest ih => exact h.append (h.visit head.2 d) (ih _)

theorem pollClientsVisits (clients : List (ClientId × Connection)) (d : Dispatcher State) :
    pollClients clients d =
      ((visits clients d).1.map fun v => (v.client, v.queued.replies.foldl Connection.queue v.connection),
        broadcasts (visits clients d).1, (visits clients d).2) := by
  induction clients generalizing d with
  | nil => rfl
  | cons head rest ih =>
    simp only [pollClients, visits, ih]
    rfl

theorem broadcastAll (frames : List Bytes) (s : Server) :
    frames.foldl broadcast s =
      { s with clients := s.clients.map fun (client, c) => (client, frames.foldl Connection.queue c) } := by
  induction frames generalizing s with
  | nil => simp
  | cons frame rest ih =>
    rw [List.foldl_cons, ih]
    simp only [broadcast, List.map_map]
    rfl

theorem visitOnly {vs : List Visit} {v : Visit} (distinct : (vs.map Visit.client).Nodup) (member : v ∈ vs)
    (isOpen : v.connection.isOpen) :
    vs.filter (fun other => decide (other.client = v.client) && other.connection.isOpen) = [v] := by
  induction vs with
  | nil => cases member
  | cons head rest ih =>
    obtain ⟨fresh, others⟩ := List.nodup_cons.1 distinct
    rcases List.mem_cons.1 member with rfl | later
    · have none : rest.filter (fun other => decide (other.client = v.client) && other.connection.isOpen) = [] := by
        refine List.filter_eq_nil_iff.2 fun other place both => ?_
        simp only [Bool.and_eq_true, decide_eq_true_eq] at both
        exact fresh (List.mem_map.2 ⟨other, place, both.1⟩)
      rw [List.filter_cons_of_pos (by simp [isOpen]), none]
    · have differs : head.client ≠ v.client := fun same => fresh (List.mem_map.2 ⟨v, later, same.symm⟩)
      rw [List.filter_cons_of_neg (by simp [differs]), ih others later]

theorem servedBytes {v : Visit} {all : List Bytes} (isOpen : (v.served all).2.isOpen) :
    v.connection.isOpen ∧ (v.served all).2.stream.written ++ (v.served all).2.pending.toBytes =
      v.connection.stream.written ++ v.connection.pending.toBytes ++ (v.frames all).flatten := by
  unfold Visit.served at isOpen ⊢
  cases before : v.connection.isOpen with
  | false =>
    rw [Connection.queueNone _ before, flushOne, before] at isOpen
    exact absurd isOpen (by simp [before])
  | true =>
    obtain ⟨still, stream, bytes⟩ := Connection.queueAll (v.frames all) before
    obtain ⟨kept, _⟩ := ((v.frames all).foldl Connection.queue v.connection).flushKeeps
    rw [stream, bytes, ← List.append_assoc] at kept
    refine ⟨rfl, ?_⟩
    simp only [flushOne, if_pos still] at isOpen ⊢
    split at isOpen
    next c flushed => rw [flushed] at kept; exact kept
    next e c flushed =>
      rw [(c.closeCloses e.message).1] at isOpen
      cases isOpen

end

def tour (s : Server) (arrivals : List Arrival) (d : Dispatcher State) : List Visit × Dispatcher State :=
  visits (accept arrivals s).2.clients d

theorem tourClients (s : Server) (arrivals : List Arrival) (d : Dispatcher State) :
    (s.tour arrivals d).1.map Visit.client = (accept arrivals s).2.clientIds :=
  visitsClients _ d

theorem pollTour (s : Server) (arrivals : List Arrival) (d : Dispatcher State) :
    (s.poll arrivals d).2 =
      ({ (accept arrivals s).2 with
          clients := ((s.tour arrivals d).1.map (Visit.served (broadcasts (s.tour arrivals d).1))).filter
            fun entry => entry.2.isOpen },
        (s.tour arrivals d).2) := by
  have served (all : List Bytes) : Visit.served all =
      (fun (client, c) => (client, flushOne c)) ∘ (fun (client, c) => (client, all.foldl Connection.queue c)) ∘
        fun v => (v.client, v.queued.replies.foldl Connection.queue v.connection) := by
    funext v
    simp only [Visit.served, Visit.frames, List.foldl_append, Function.comp_apply]
  simp only [poll, pollClientsVisits, broadcastAll, flush, List.map_map, served, tour]

def welcomes (next : Nat) (arrivals : List Arrival) : List ServerEvent :=
  (arrivals.zipIdx next).map fun (arrival, i) => .connected ⟨i⟩ arrival.peer

def newcomers (limit : UInt32) (next : Nat) (arrivals : List Arrival) : List (ClientId × Connection) :=
  (arrivals.zipIdx next).map fun (arrival, i) => (⟨i⟩, .fresh arrival.stream arrival.peer limit)

structure Numbered (s : Server) : Prop where
  ascending : s.clientIds.Pairwise fun a b => a.id < b.id
  below : ∀ client ∈ s.clientIds, client.id < s.nextId

section
variable {s : Server}

theorem Numbered.distinct (h : s.Numbered) : s.clientIds.Nodup :=
  h.ascending.imp fun less same => absurd (same ▸ less) (Nat.lt_irrefl _)

theorem Numbered.accepted (h : s.Numbered) (arrivals : List Arrival) : (accept arrivals s).2.Numbered := by
  induction arrivals generalizing s with
  | nil => exact h
  | cons arrival rest ih =>
    refine ih ⟨?_, ?_⟩
    · simp only [clientIds, List.map_append, List.map_cons, List.map_nil, List.pairwise_append]
      refine ⟨h.ascending, List.pairwise_singleton _ _, fun a member b new => ?_⟩
      rw [List.mem_singleton.1 new]
      exact h.below a member
    · simp only [clientIds, List.map_append, List.map_cons, List.map_nil]
      refine List.forall_mem_append.2 ⟨fun client member => ?_, List.forall_mem_singleton.2 (Nat.lt_succ_self _)⟩
      exact Nat.lt_succ_of_lt (h.below client member)

theorem acceptAll (arrivals : List Arrival) (s : Server) :
    accept arrivals s =
      (welcomes s.nextId arrivals,
        { s with
          clients := s.clients ++ newcomers s.limit s.nextId arrivals
          nextId := s.nextId + arrivals.length
          accepted := s.accepted + arrivals.length }) := by
  induction arrivals generalizing s with
  | nil => simp [accept, welcomes, newcomers]
  | cons arrival rest ih =>
    simp only [accept, ih, welcomes, newcomers, List.zipIdx_cons, List.map_cons, List.length_cons, List.append_assoc,
      List.singleton_append, Nat.add_assoc, Nat.add_comm 1]

theorem newcomer {limit : UInt32} {next : Nat} {arrivals : List Arrival} {entry : ClientId × Connection}
    (member : entry ∈ newcomers limit next arrivals) :
    next ≤ entry.1.id ∧ ∃ arrival ∈ arrivals, entry.2 = .fresh arrival.stream arrival.peer limit := by
  obtain ⟨⟨arrival, i⟩, place, rfl⟩ := List.mem_map.1 member
  exact ⟨(List.mem_zipIdx place).1, arrival, List.fst_mem_of_mem_zipIdx place, rfl⟩

theorem acceptKeeps (arrivals : List Arrival) (s : Server) :
    s.nextId ≤ (accept arrivals s).2.nextId ∧
      ∃ new, (accept arrivals s).2.clients = s.clients ++ new ∧
        ∀ entry ∈ new, s.nextId ≤ entry.1.id ∧
          ∃ arrival ∈ arrivals, entry.2 = .fresh arrival.stream arrival.peer s.limit := by
  rw [acceptAll]
  exact ⟨Nat.le_add_right _ _, _, rfl, fun entry => newcomer⟩

theorem Numbered.polled (h : s.Numbered) (arrivals : List Arrival) (d : Dispatcher State) :
    (s.poll arrivals d).2.1.Numbered := by
  have accepted := h.accepted arrivals
  have ids : (s.poll arrivals d).2.1.clientIds.Sublist (accept arrivals s).2.clientIds := by
    rw [pollTour]
    refine (List.filter_sublist.map _).trans ?_
    rw [List.map_map, clientIds, ← visitsClients _ d]
    exact List.Sublist.refl _
  refine ⟨accepted.ascending.sublist ids, fun client member => ?_⟩
  rw [pollTour]
  exact accepted.below client (ids.subset member)

end

structure Run (State : Type) where
  server : Server
  dispatcher : Dispatcher State
  queued : List (ClientId × List Bytes)

namespace Run

def start (limit : UInt32) (d : Dispatcher State) : Run State := ⟨.fresh limit, d, []⟩

def visits (r : Run State) (arrivals : List Arrival) : List Visit × Dispatcher State :=
  r.server.tour arrivals r.dispatcher

def round (r : Run State) (arrivals : List Arrival) : Run State :=
  let vs := (r.visits arrivals).1
  { server := (r.server.poll arrivals r.dispatcher).2.1
    dispatcher := (r.server.poll arrivals r.dispatcher).2.2
    queued := r.queued ++ (vs.filter (·.connection.isOpen)).map fun v => (v.client, v.frames (broadcasts vs)) }

def queuedTo (r : Run State) (client : ClientId) : List Bytes :=
  (r.queued.filter (·.1 = client)).flatMap Prod.snd

structure Accounted (r : Run State) : Prop where
  numbered : r.server.Numbered
  known : ∀ entry ∈ r.queued, entry.1.id < r.server.nextId
  isOpen : ∀ entry ∈ r.server.clients, entry.2.isOpen
  bytes : ∀ entry ∈ r.server.clients,
    entry.2.stream.written ++ entry.2.pending.toBytes = (r.queuedTo entry.1).flatten

theorem accountedStart (limit : UInt32) (d : Dispatcher State) : (start limit d).Accounted :=
  ⟨⟨.nil, nofun⟩, nofun, nofun, nofun⟩

section
variable {r : Run State} {arrivals : List Arrival} {client : ClientId} {c : Connection}

theorem roundTraced {P : Dispatcher State → Outbox → Dispatcher State → Prop} (h : Traced P)
    (r : Run State) (arrivals : List Arrival) :
    P r.dispatcher ⟨(r.visits arrivals).1.flatMap (·.queued.replies), broadcasts (r.visits arrivals).1⟩
      (r.round arrivals).dispatcher := by
  have last : (r.round arrivals).dispatcher = (r.visits arrivals).2 := by rw [round, pollTour]; rfl
  rw [last]
  exact visitsTraced h _ r.dispatcher

theorem queuedToNew (known : ∀ entry ∈ r.queued, entry.1.id < r.server.nextId)
    (new : r.server.nextId ≤ client.id) : r.queuedTo client = [] := by
  have none : r.queued.filter (·.1 = client) = [] := by
    refine List.filter_eq_nil_iff.2 fun entry member => ?_
    have below := known entry member
    simp only [decide_eq_true_eq]
    rintro rfl
    omega
  rw [queuedTo, none, List.flatMap_nil]

theorem roundClient (numbered : r.server.Numbered) (member : (client, c) ∈ (r.round arrivals).server.clients) :
    ∃ v ∈ (r.visits arrivals).1, v.served (broadcasts (r.visits arrivals).1) = (client, c) ∧ c.isOpen ∧
      (r.round arrivals).queuedTo client = r.queuedTo client ++ v.frames (broadcasts (r.visits arrivals).1) := by
  simp only [round, pollTour] at member
  obtain ⟨place, isOpen⟩ := List.mem_filter.1 member
  obtain ⟨v, visited, served⟩ := List.mem_map.1 place
  have same : v.client = client := congrArg Prod.fst served
  have servedOpen : (v.served (broadcasts (r.visits arrivals).1)).2.isOpen := by
    rw [visits, served]
    exact isOpen
  obtain ⟨readOpen, _⟩ := servedBytes servedOpen
  have distinct : ((r.visits arrivals).1.map Visit.client).Nodup := by
    rw [visits, tourClients]
    exact (numbered.accepted arrivals).distinct
  refine ⟨v, visited, served, isOpen, ?_⟩
  subst same
  simp only [round, queuedTo, List.filter_append, List.flatMap_append, List.filter_map, List.filter_filter,
    Function.comp_def, visitOnly distinct visited readOpen, List.map_cons, List.map_nil, List.flatMap_singleton]

theorem roundBefore {v : Visit} (known : ∀ entry ∈ r.queued, entry.1.id < r.server.nextId)
    (visited : v ∈ (r.visits arrivals).1) :
    ∃ (before : Connection) (d : Dispatcher State), (before.poll d .empty).2.1 = v.connection ∧
      ((v.client, before) ∈ r.server.clients ∨ r.queuedTo v.client = [] ∧
        ∃ arrival ∈ arrivals, before = .fresh arrival.stream arrival.peer r.server.limit) := by
  obtain ⟨before, d, place, polled⟩ := visitPolled visited
  obtain ⟨_, new, clients, each⟩ := acceptKeeps arrivals r.server
  refine ⟨before, d, polled, ?_⟩
  rw [clients] at place
  rcases List.mem_append.1 place with old | arrived
  · exact .inl old
  · obtain ⟨later, arrival⟩ := each _ arrived
    exact .inr ⟨queuedToNew known later, arrival⟩

theorem Accounted.onRound (h : r.Accounted) (unwritten : ∀ arrival ∈ arrivals, arrival.stream.written = []) :
    (r.round arrivals).Accounted := by
  refine ⟨h.numbered.polled arrivals r.dispatcher, ?_, ?_, ?_⟩
  · have next : (r.round arrivals).server.nextId = (accept arrivals r.server).2.nextId := by
      rw [round, pollTour]
    rw [next]
    refine List.forall_mem_append.2 ⟨fun entry member => ?_, fun entry member => ?_⟩
    · exact Nat.lt_of_lt_of_le (h.known entry member) (acceptKeeps arrivals r.server).1
    · obtain ⟨v, visited, rfl⟩ := List.mem_map.1 member
      have place : v.client ∈ (r.visits arrivals).1.map Visit.client :=
        List.mem_map_of_mem (List.mem_filter.1 visited).1
      rw [visits, tourClients] at place
      exact (h.numbered.accepted arrivals).below v.client place
  · rintro ⟨client, c⟩ member
    obtain ⟨_, _, _, isOpen, _⟩ := roundClient h.numbered member
    exact isOpen
  · rintro ⟨client, c⟩ member
    obtain ⟨v, visited, served, isOpen, queued⟩ := roundClient h.numbered member
    obtain ⟨readOpen, bytes⟩ := servedBytes (v := v) (by rw [served]; exact isOpen)
    obtain ⟨before, d, polled, origin⟩ := roundBefore h.known visited
    rw [← polled] at readOpen bytes
    obtain ⟨_, pending, written⟩ := Connection.pollKeeps readOpen
    have same : v.client = client := congrArg Prod.fst served
    rw [served, written, pending] at bytes
    rw [same] at origin
    have earlier : before.stream.written ++ before.pending.toBytes = (r.queuedTo client).flatten := by
      rcases origin with old | ⟨none, arrival, place, rfl⟩
      · exact h.bytes _ old
      · rw [none]
        exact List.append_eq_nil_iff.2 ⟨unwritten arrival place, rfl⟩
    rw [queued, List.flatten_append, ← earlier]
    exact bytes

end

end Run

end RobotLink.Server
