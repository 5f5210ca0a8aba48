import RobotLink.Proofs.HandlerOrder
import RobotLink.Proofs.PayloadRoundTrip
import RobotLink.Proofs.ScriptListings

/-! The scripts against their history. What is stored under a name is what the last message about it
uploaded, if it did not remove it, and this alone decides what a dispatcher answers its clients. -/
namespace RobotLink

def Frame.message? (widths : WidthTable) (f : Frame) : Option Message :=
  (Opcode.ofCode? f.opcode).bind fun op => (Message.decode widths op f.payload).1.toOption

theorem Frame.messageOpened {widths : WidthTable} {f : Frame} {opened : Except DispatchError (Message × Nat)}
    (opens : f.Opened widths opened) : f.message? widths = opened.toOption.map Prod.fst := by
  have known {op : Opcode} (code : op.code = f.opcode) : Opcode.ofCode? f.opcode = some op := by
    rw [← code, Opcode.ofCodeCode]
  unfold message?
  cases opens with
  | decoded code read _ => rw [known code, Option.bind_some, read]; rfl
  | unknown unknown => rw [unknownIff.2 unknown]; rfl
  | unmeasured code simple none =>
    rw [known code, Option.bind_some, Message.decodeUnmeasured simple none]
    rfl
  | undecoded code read => rw [known code, Option.bind_some, read]; rfl

theorem Message.heardItself {m : Message} {widths : WidthTable} (formed : m.WellFormed widths) (fits : m.frame.Fits) :
    m.frame.message? widths = some m := by
  have short : m.payload.length < UInt32.size := Nat.lt_of_le_of_lt (Nat.le_add_left _ 1) fits
  have read := decodePayload formed short []
  rw [List.append_nil] at read
  rw [Frame.message?, frame, Opcode.ofCodeCode, Option.bind_some, read]
  rfl

def heard (widths : WidthTable) (frames : List Frame) : List Message := frames.filterMap (Frame.message? widths)

namespace Dispatcher
variable {State : Type}

theorem dispatchHeard {d : Dispatcher State} {f : Frame} {m : Message} (found : f.message? d.widths = some m)
    (out : Outbox) :
    (d.dispatch f out).2.1 = (call m (d.route m.opcode) d.state out).1 ∧
      (d.dispatch f out).2.2.state = (call m (d.route m.opcode) d.state out).2 := by
  obtain ⟨opened, opens⟩ := f.opens d.widths
  rw [Frame.messageOpened opens] at found
  rw [dispatchOpened d out opens]
  cases opened with
  | error => cases found
  | ok => cases found; exact ⟨rfl, rfl⟩

theorem dispatchUnheard {d : Dispatcher State} {f : Frame} (lost : f.message? d.widths = none) (out : Outbox) :
    (d.dispatch f out).2 = (out, d) := by
  obtain ⟨opened, opens⟩ := f.opens d.widths
  rw [Frame.messageOpened opens] at lost
  rw [dispatchOpened d out opens]
  cases opened with
  | error => rfl
  | ok => cases lost

end Dispatcher

namespace ScriptStore

def event? : Message → Option (String × Option Bytes)
  | .uploadLua name script | .uploadRunLua name script => some (name, some script)
  | .removeServerLua name => some (name, none)
  | _ => none

def latest? (history : List Message) (name : String) : Option Bytes :=
  ((history.filterMap event?).filter (·.1 = name)).getLast?.bind Prod.snd

def Runs : Message → Prop
  | .uploadRunLua .. | .runLua _ | .runServerLua _ => True
  | _ => False

section
variable {history : List Message} {m : Message} {s : ScriptStore} {name other : String} {script : Bytes}

theorem latestQuiet (quiet : event? m = none) (name : String) : latest? (history ++ [m]) name = latest? history name := by
  simp [latest?, quiet]

theorem latestEvent {value : Option Bytes} (event : event? m = some (name, value)) (other : String) :
    latest? (history ++ [m]) other = if other = name then value else latest? history other := by
  by_cases same : other = name
  · subst same
    simp [latest?, event]
  · simp [latest?, event, same, Ne.symm same]

theorem beforeOfNot (later : ¬before name other) (differ : name ≠ other) : before other name := by
  have texts : Bytes.ofText name ≠ Bytes.ofText other := fun same =>
    differ (Option.some.inj ((Bytes.toTextOfText name).symm.trans ((congrArg _ same).trans (Bytes.toTextOfText other))))
  simp only [before, decide_eq_true_eq] at later ⊢
  exact Std.lt_of_le_of_ne (List.not_lt.1 later) texts.symm

theorem lookupEntry (entry : String × Bytes) (rest : List (String × Bytes)) (name : String) :
    (entry :: rest).lookup name = if name = entry.1 then some entry.2 else rest.lookup name := by
  rw [List.lookup_cons]
  split
  next same => rw [if_pos (beq_iff_eq.1 same)]
  next differ => rw [if_neg (beq_eq_false_iff_ne.1 differ)]

theorem getUpload (s : ScriptStore) (name : String) (script : Bytes) (other : String) :
    (s.upload name script).get? other = if other = name then some script else s.get? other := by
  obtain ⟨entries⟩ := s
  simp only [upload, get?]
  induction entries with
  | nil => rw [insert, lookupEntry]
  | cons entry rest ih =>
    rw [insert]
    split
    next same =>
      rw [lookupEntry, lookupEntry, ← same]
      split <;> rfl
    next differ =>
      split
      next => rw [lookupEntry]
      next =>
        rw [lookupEntry, ih, lookupEntry]
        split
        next here => rw [if_neg (here ▸ Ne.symm differ)]
        next => rfl

theorem getRemove (s : ScriptStore) (name other : String) :
    (s.remove name).get? other = if other = name then none else s.get? other := by
  obtain ⟨entries⟩ := s
  simp only [remove, get?]
  induction entries with
  | nil => exact (ite_self _).symm
  | cons entry rest ih =>
    rw [lookupEntry]
    by_cases same : entry.1 = name
    · rw [List.filter_cons_of_neg (by simp [same]), ih, same]
      split <;> rfl
    · rw [List.filter_cons_of_pos (by simp [same]), lookupEntry, ih]
      split
      next here => rw [if_neg (here ▸ same)]
      next => rfl

theorem memNames (s : ScriptStore) (name : String) : name ∈ s.names ↔ (s.get? name).isSome := by
  obtain ⟨entries⟩ := s
  simp only [names, get?]
  induction entries with
  | nil => simp
  | cons entry rest ih =>
    rw [lookupEntry, List.map_cons, List.mem_cons, ih]
    split
    next here => simp [here]
    next differ => simp [differ]

def Ascending (entries : List (String × Bytes)) : Prop :=
  (entries.map Prod.fst).Pairwise fun a b => Bytes.ofText a < Bytes.ofText b

theorem namesInsert (name : String) (script : Bytes) (entries : List (String × Bytes)) :
    ∀ other ∈ (insert name script entries).map Prod.fst, other = name ∨ other ∈ entries.map Prod.fst := by
  intro other member
  rcases (memNames (upload ⟨entries⟩ name script) other).1 member with found
  rw [getUpload] at found
  split at found
  next same => exact .inl same
  next => exact .inr ((memNames ⟨entries⟩ other).2 found)

theorem ascendingInsert {entries : List (String × Bytes)} (ascending : Ascending entries) (name : String)
    (script : Bytes) : Ascending (insert name script entries) := by
  induction entries with
  | nil => exact List.pairwise_singleton ..
  | cons entry rest ih =>
    obtain ⟨below, others⟩ := List.pairwise_cons.1 ascending
    rw [insert]
    split
    next same => exact same ▸ ascending
    next differ =>
      split
      next first =>
        have first : Bytes.ofText name < Bytes.ofText entry.1 := of_decide_eq_true first
        exact List.pairwise_cons.2 ⟨List.forall_mem_cons.2 ⟨first, fun other member => List.lt_trans first (below other member)⟩,
          ascending⟩
      next later =>
        have later : Bytes.ofText entry.1 < Bytes.ofText name := of_decide_eq_true (beforeOfNot later differ)
        refine List.pairwise_cons.2 ⟨fun other member => ?_, ih others⟩
        rcases namesInsert name script rest other member with rfl | old
        · exact later
        · exact below other old

structure Follows (history : List Message) (s : ScriptStore) : Prop where
  ascending : s.names.Pairwise fun a b => Bytes.ofText a < Bytes.ofText b
  names : ∀ name, name ∈ s.names ↔ (latest? history name).isSome
  scripts : ∀ name, s.get? name = latest? history name

theorem followsNone : Follows [] empty := by
  constructor
  · exact .nil
  · simp [names, empty, latest?]
  · simp [get?, empty, latest?]

theorem followsNext (follows : Follows history s) (m : Message) : Follows (history ++ [m]) (s.apply m) := by
  have scripts : ∀ name, (s.apply m).get? name = latest? (history ++ [m]) name := by
    intro name
    cases m with
    | uploadLua own script | uploadRunLua own script =>
      rw [apply, getUpload, latestEvent rfl, follows.scripts]
    | removeServerLua own => rw [apply, getRemove, latestEvent rfl, follows.scripts]
    | _ => rw [latestQuiet rfl]; exact follows.scripts name
  have ascending : Ascending (s.apply m).entries := by
    cases m with
    | uploadLua own script | uploadRunLua own script => exact ascendingInsert follows.ascending own script
    | removeServerLua own => exact List.Pairwise.sublist (List.filter_sublist.map _) follows.ascending
    | _ => exact follows.ascending
  exact ⟨ascending, fun name => by rw [memNames, scripts], scripts⟩

structure Answers (history : List Message) (m : Message) (before : ScriptStore) (queued : Outbox)
    (after : ScriptStore) : Prop where
  listed : m = .getScripts → queued.replies = [(Message.luaScripts before.names).encode]
  fetched : ∀ name script, m = .getServerLua name → latest? history name = some script →
    queued.replies = [(Message.requestedScript script).encode]
  missing : ∀ name, m = .getServerLua name → latest? history name = none →
    queued.replies = [(Message.luaText (noScript name)).encode]
  refused : Runs m →
    queued.replies = [(Message.luaText executionUnavailable).encode, (Message.scriptRunning false).encode]
  uploaded : ∀ name script, event? m = some (name, some script) →
    queued.broadcasts = [(Message.luaScripts after.names).encode]
  removed : ∀ name, event? m = some (name, none) → (latest? history name).isSome →
    queued.broadcasts = [(Message.luaScripts after.names).encode]
  absent : ∀ name, event? m = some (name, none) → latest? history name = none →
    queued.broadcasts = [] ∧ after = before
  unchanged : event? m = none → queued.broadcasts = [] ∧ after = before
  unanswered : m ≠ .getScripts → (∀ name, m ≠ .getServerLua name) → ¬Runs m → queued.replies = []

theorem handleAnswers (follows : Follows history s) (m : Message) : Answers history m s (s.queued m) (s.apply m) := by
  constructor
  case listed =>
    rintro rfl
    rfl
  case fetched =>
    rintro name script rfl found
    rw [← follows.scripts] at found
    simp only [queued, replies, found, List.map_cons, List.map_nil]
  case missing =>
    rintro name rfl none
    rw [← follows.scripts] at none
    simp only [queued, replies, none, List.map_cons, List.map_nil]
  case refused =>
    intro runs
    cases m with
    | uploadRunLua | runLua | runServerLua => rfl
    | _ => cases runs
  case uploaded =>
    intro name script event
    cases m with
    | uploadLua | uploadRunLua => rfl
    | _ => cases event
  case removed =>
    intro name event known
    cases m with
    | removeServerLua =>
      cases event
      rw [← follows.scripts] at known
      simp only [queued, announcements, contains, known, if_true, List.map_cons, List.map_nil]
      rfl
    | _ => cases event
  case absent =>
    intro name event none
    cases m with
    | removeServerLua =>
      cases event
      rw [← follows.scripts] at none
      have unknown : s.contains name = false := by rw [contains, none]; rfl
      simp only [queued, announcements, apply, unknown, removeAbsent unknown]
      exact ⟨rfl, trivial⟩
    | _ => cases event
  case unchanged =>
    intro quiet
    cases m with
    | uploadLua | uploadRunLua | removeServerLua => cases quiet
    | _ => exact ⟨rfl, rfl⟩
  case unanswered =>
    intro listing fetching running
    cases m with
    | getScripts => exact absurd rfl listing
    | getServerLua name => exact absurd rfl (fetching name)
    | uploadRunLua | runLua | runServerLua => exact absurd trivial running
    | _ => rfl

end

section
variable {State : Type} {part : State → ScriptStore} {replace : ScriptStore → State → State} {widths : WidthTable}

theorem idle {m : Message} (other : m.opcode ∉ opcodes) (s : ScriptStore) : s.queued m = .empty ∧ s.apply m = s := by
  cases m with
  | getScripts | uploadLua | uploadRunLua | runLua | runServerLua | removeServerLua | getServerLua =>
    simp [opcodes, Message.opcode] at other
  | _ => exact ⟨rfl, rfl⟩

structure Routes (part : State → ScriptStore) (replace : ScriptStore → State → State) (widths : WidthTable)
    (d : Dispatcher State) : Prop where
  widths : d.widths = widths
  route : ∀ op, d.route op = if op ∈ opcodes then [handle.within part replace] else []

theorem routesInstalled (part : State → ScriptStore) (replace : ScriptStore → State → State) (widths : WidthTable)
    (s : State) : Routes part replace widths (install part replace (.fresh widths s)) :=
  ⟨rfl, fun op => by cases op <;> rfl⟩

theorem Routes.dispatched {d : Dispatcher State} (routes : Routes part replace widths d) (f : Frame) (out : Outbox) :
    Routes part replace widths (d.dispatch f out).2.2 := by
  obtain ⟨same, handlers, catchAll⟩ := d.dispatchRegistered f out
  refine ⟨same.trans routes.widths, fun op => ?_⟩
  rw [← routes.route, Dispatcher.route, Dispatcher.handlersOf, handlers, catchAll]
  rfl

theorem Routes.calls {d : Dispatcher State} (routes : Routes part replace widths d)
    (lens : ∀ scripts s, part (replace scripts s) = scripts) {f : Frame} {m : Message}
    (found : f.message? widths = some m) (out : Outbox) :
    (d.dispatch f out).2.1 = out ++ (part d.state).queued m ∧
      part (d.dispatch f out).2.2.state = (part d.state).apply m := by
  obtain ⟨left, state⟩ := Dispatcher.dispatchHeard (routes.widths.symm ▸ found) out
  rw [left, state, routes.route]
  split
  next => exact ⟨rfl, lens _ _⟩
  next other =>
    obtain ⟨silent, same⟩ := idle other (part d.state)
    rw [silent, same]
    exact ⟨out.appendEmpty.symm, rfl⟩

theorem routesRun (part : State → ScriptStore) (replace : ScriptStore → State → State) (widths : WidthTable) (s : State)
    (out : Outbox) (frames : List Frame) :
    Routes part replace widths ((install part replace (.fresh widths s)).dispatchAll out frames).2 :=
  List.foldlRecOn (motive := fun (after : Outbox × Dispatcher State) => Routes part replace widths after.2) frames _
    (routesInstalled part replace widths s) fun after routes f _ => routes.dispatched f after.1

theorem followsRun (widths : WidthTable) (lens : ∀ scripts s, part (replace scripts s) = scripts) {s : State}
    (bare : part s = empty) (out : Outbox) (frames : List Frame) :
    Follows (heard widths frames) (part ((install part replace (.fresh widths s)).dispatchAll out frames).2.state) := by
  induction frames using List.reverseRecOn with
  | nil => exact bare.symm ▸ followsNone
  | append_singleton frames f ih =>
    have routes := routesRun part replace widths s out frames
    rw [Dispatcher.dispatchAllAppend, heard, List.filterMap_append, ← heard]
    change Follows _ (part (Dispatcher.dispatch _ f _).2.2.state)
    cases found : f.message? widths with
    | none =>
      rw [Dispatcher.dispatchUnheard (routes.widths.symm ▸ found)]
      simpa [found] using ih
    | some m =>
      rw [(routes.calls lens found _).2]
      simpa [found] using followsNext ih m

/-- Behind frames of any kinds, the names are in order and those whose last upload or removal was an upload, each
with the script of it; the next message is answered and announced by what these say, and a frame without a
message does nothing. -/
theorem historyFollowed (widths : WidthTable) (lens : ∀ scripts s, part (replace scripts s) = scripts) (s : State)
    (bare : part s = empty) (first : Outbox) (frames : List Frame) (f : Frame) (out : Outbox) :
    let history := heard widths frames
    let d := ((install part replace (.fresh widths s)).dispatchAll first frames).2
    Follows history (part d.state) ∧
      (∀ m, f.message? widths = some m → ∃ queued, (d.dispatch f out).2.1 = out ++ queued ∧
        Answers history m (part d.state) queued (part (d.dispatch f out).2.2.state)) ∧
      (f.message? widths = none → (d.dispatch f out).2 = (out, d)) ∧
      ∀ m : Message, m.WellFormed widths → m.frame.Fits → m.frame.message? widths = some m := by
  intro history d
  have follows := followsRun widths lens bare first frames
  have routes := routesRun part replace widths s first frames
  refine ⟨follows, fun m found => ?_, fun lost => ?_, fun m => Message.heardItself⟩
  · obtain ⟨left, state⟩ := routes.calls lens found out
    rw [state]
    exact ⟨_, left, handleAnswers follows m⟩
  · exact Dispatcher.dispatchUnheard (routes.widths.symm ▸ lost) out

theorem replacedScriptFetched :
    let replace (scripts _ : ScriptStore) : ScriptStore := scripts
    let messages := [Message.uploadLua "b.lua" [1], .uploadRunLua "a.lua" [2], .removeServerLua "c.lua",
      .uploadLua "b.lua" [3], .removeServerLua "a.lua"]
    let frames : List Frame := ⟨255, [7]⟩ :: messages.map Message.frame
    let d := ((install id replace (.fresh .standard empty)).dispatchAll .empty frames).2
    let left := (d.dispatch (Message.getServerLua "b.lua").frame ⟨[[7]], []⟩).2.1
    (∀ scripts s, id (replace scripts s) = scripts) ∧ id empty = empty ∧
      ScriptStore.get? d.state "b.lua" = some [3] ∧ "a.lua" ∉ ScriptStore.names d.state ∧
      left.replies = [[7], (Message.requestedScript [3]).encode] ∧ left.broadcasts = [] := by
  intro replace messages frames
  dsimp only
  obtain ⟨follows, answers, _, _⟩ :=
    @historyFollowed _ id replace .standard (fun _ _ => rfl) empty rfl .empty frames
      (Message.getServerLua "b.lua").frame ⟨[[7]], []⟩
  have known : heard .standard frames = messages := by cbv
  rw [known] at follows answers
  obtain ⟨queued, left, answer⟩ := answers (.getServerLua "b.lua") (by cbv)
  have last : latest? messages "b.lua" = some [3] := by cbv
  have gone : latest? messages "a.lua" = none := by cbv
  rw [left]
  refine ⟨fun _ _ => rfl, rfl, (follows.scripts "b.lua").trans last, fun member => ?_,
    congrArg ([[7]] ++ ·) (answer.fetched "b.lua" [3] rfl last), (answer.unchanged rfl).1⟩
  have uploaded := (follows.names "a.lua").1 member
  rw [gone] at uploaded
  cases uploaded

end

end ScriptStore
end RobotLink
