import Peerscale.Softun.Syn

/-! # Which SYNs are answered with a reset

A SYN to a closed port keeps its mark until some call with the same key takes it, so that
one of the copies is answered. A SYN to an open port has lost its mark when `Send` returns.
If a copy of it sets the mark again at that point, then the first call takes the mark of the
copy for its own.
-/

namespace Peerscale.Softun

open List AList

variable {node : Node}

def Stage.since : Stage → Option Time
  | .marked since => some since
  | .sent since => some since
  | .ready => none
  | .returned => none

def Stage.isSent : Stage → Bool
  | .sent _ => true
  | _ => false

namespace Handshakes

def Timely (state : Handshakes node) : Action → Prop
  | .reap now => ∀ call ∈ state.calls, ∀ since ∈ call.stage.since, Time.sub now since ≤ synTTL
  | _ => True

def Proper (_ : Handshakes node) : Action → Prop
  | .inbound pkt => Answerable node pkt
  | _ => True

/-- A call for an open port sets its mark when no call with the same key is about to take
one. -/
def SetsAlone (state : Handshakes node) : Action → Prop
  | .step index _ => ∀ call ∈ state.calls[index]?, call.stage = .ready →
      node.isOpen call.key.localPort →
        ∀ other ∈ state.calls, other.key = call.key → other.stage.isSent = false
  | _ => True

def Regular (state : Handshakes node) (action : Action) : Prop :=
  state.Timely action ∧ state.Proper action

instance (state : Handshakes node) (action : Action) : Decidable (state.Timely action) :=
  match action with
  | .reap _ => inferInstanceAs (Decidable (∀ _ ∈ _, _))
  | .inbound _ => inferInstanceAs (Decidable True)
  | .step _ _ => inferInstanceAs (Decidable True)

instance (state : Handshakes node) (action : Action) : Decidable (state.Proper action) :=
  match action with
  | .inbound pkt => inferInstanceAs (Decidable (Answerable node pkt))
  | .reap _ => inferInstanceAs (Decidable True)
  | .step _ _ => inferInstanceAs (Decidable True)

instance (state : Handshakes node) (action : Action) : Decidable (state.SetsAlone action) :=
  match action with
  | .step _ _ => inferInstanceAs (Decidable (∀ _ ∈ _, _))
  | .inbound _ => inferInstanceAs (Decidable True)
  | .reap _ => inferInstanceAs (Decidable True)

instance (state : Handshakes node) (action : Action) : Decidable (state.Regular action) :=
  inferInstanceAs (Decidable (_ ∧ _))

variable {key : SynKey} {pending : AList fun _ : SynKey => Time} {call : Call node} {index : Nat}

theorem lookup_erase_eq_some (found : (pending.erase erased).lookup key = some since) :
    key ≠ erased ∧ pending.lookup key = some since := by
  by_cases same : key = erased
  · rw [same, lookup_erase] at found
    cases found
  · rw [lookup_erase_ne same] at found
    exact ⟨same, found⟩

theorem lookup_reap_eq_some {erased : List SynKey}
    (found : (erased.foldl (fun pending key => pending.erase key) pending).lookup key =
      some since) : pending.lookup key = some since := by
  induction erased generalizing pending with
  | nil => exact found
  | cons x erased ih => exact (lookup_erase_eq_some (ih found)).2

theorem mem_set_of_ne {calls : List (Call node)} (found : calls[index]? = some call)
    (next : Call node) (mem : other ∈ calls) (ne : other ≠ call) :
    other ∈ calls.set index next := by
  rcases mem_iff_getElem?.mp mem with ⟨p, isOther⟩
  have apart : index ≠ p := by
    rintro rfl
    rw [found, Option.some.injEq] at isOther
    exact ne isOther.symm
  exact mem_iff_getElem?.mpr ⟨p, by rw [getElem?_set_ne apart]; exact isOther⟩

theorem mem_set_self {calls : List (Call node)} (found : calls[index]? = some call)
    (next : Call node) : next ∈ calls.set index next :=
  List.mem_set (List.getElem?_eq_some_iff.mp found).1 next

def Uses (state : Handshakes node) (key : SynKey) (since : Time) : Prop :=
  ∃ call ∈ state.calls, call.key = key ∧ call.stage.since = some since

def Used (state : Handshakes node) : Prop :=
  ∀ key since, state.synPend.lookup key = some since → state.Uses key since

variable {state : Handshakes node}

theorem Uses.of_other {since : Time} (uses : state.Uses key since)
    (found : state.calls[index]? = some call) (next : Call node)
    (other : call.key = key → call.stage.since ≠ some since) :
    ∃ user ∈ state.calls.set index next, user.key = key ∧ user.stage.since = some since := by
  rcases uses with ⟨user, mem, sameKey, sameTime⟩
  refine ⟨user, mem_set_of_ne found next mem ?_, sameKey, sameTime⟩
  rintro rfl
  exact other sameKey sameTime

theorem Used.act (used : state.Used)
    (answerable : ∀ call ∈ state.calls, Answerable node call.packet) (a : Action) :
    (state.act a).Used := by
  have eff := effect_act answerable a
  generalize state.act a = post at eff
  intro key since
  cases eff with
  | received =>
    intro found
    rcases used key since found with ⟨user, mem, same⟩
    exact ⟨user, mem_append_left _ mem, same⟩
  | @marked index call has =>
    intro found
    by_cases same : key = call.key
    · rw [same, lookup_insert, Option.some.injEq] at found
      rw [same, ← found]
      exact ⟨_, mem_set_self has _, rfl, rfl⟩
    · rw [lookup_insert_ne same] at found
      exact (used key since found).of_other has _ fun own => absurd own.symm same
  | @sent index call has at' now isMarked =>
    intro found
    have pre : state.synPend.lookup key = some since := by
      dsimp only at found
      split at found
      · exact (lookup_erase_eq_some found).2
      · exact found
    by_cases own : call.key = key ∧ call.stage.since = some since
    · rw [isMarked] at own
      exact ⟨_, mem_set_self has _, own.1, own.2⟩
    · exact (used key since pre).of_other has _ (not_and.mp own)
  | answered has | unanswered has =>
    intro found
    rcases lookup_erase_eq_some found with ⟨ne, pre⟩
    exact (used key since pre).of_other has _ fun own => absurd own.symm ne
  | reaped => exact fun found => used key since (lookup_reap_eq_some found)
  | nothing => exact used key since

theorem Used.reapSynPending_eq (used : state.Used) (timely : state.Timely (.reap now)) :
    state.reapSynPending now = state := by
  have fresh : state.stale now = [] := by
    rw [stale, filter_eq_nil_iff]
    intro key _ old
    rcases (Option.any_eq_true_iff_get ..).mp old with ⟨isSome, late⟩
    rcases used key _ (Option.some_get isSome).symm with ⟨call, mem, -, inUse⟩
    exact absurd (of_decide_eq_true late) (Int.not_lt.mpr (timely call mem _ inUse))
  rw [reapSynPending, fresh]
  rfl

/-! ## Closed ports -/

def WasReset (state : Handshakes node) (pkt : Packet) : Prop :=
  ∃ entry ∈ state.resets, entry.1.tuple = pkt.tuple

/-- A call for a closed port has its mark, or a reset has been sent for the connection. -/
structure Refuses (state : Handshakes node) (call : Call node) : Prop where
  pending : call.stage.since.isSome → (state.synPend.lookup call.key).isSome ∨
    state.WasReset call.packet
  returned : call.stage = .returned → state.WasReset call.packet

def RefusesClosed (state : Handshakes node) : Prop :=
  ∀ call ∈ state.calls, node.isOpen call.key.localPort = false → state.Refuses call

/-- A step that keeps the resets, and the mark of the connection unless that has been
reset. -/
theorem Refuses.mono {post : Handshakes node} (refuses : state.Refuses call)
    (resets : state.WasReset call.packet → post.WasReset call.packet)
    (marks : (state.synPend.lookup call.key).isSome →
      (post.synPend.lookup call.key).isSome ∨ post.WasReset call.packet) : post.Refuses call :=
  ⟨fun inUse => (refuses.pending inUse).elim marks fun reset => .inr (resets reset),
    fun ret => resets (refuses.returned ret)⟩

section

variable (refuses : state.RefusesClosed)

include refuses

theorem RefusesClosed.received (ready : call.stage = .ready) :
    RefusesClosed { state with calls := state.calls ++ [call] } := by
  intro other mem closed
  rcases mem_append.mp mem with prev | new
  · exact (refuses other prev closed).mono id .inl
  rw [mem_singleton.mp new]
  refine ⟨?_, ?_⟩
  · intro inUse
    rw [ready] at inUse
    cases inUse
  intro ret
  rw [ready] at ret
  cases ret

theorem RefusesClosed.marked (now : Time) :
    RefusesClosed { state with
      synPend := state.synPend.insert call.key now
      calls := state.calls.set index { call with stage := .marked now } } := by
  intro other mem closed
  rcases mem_or_eq_of_mem_set mem with prev | rfl
  · refine (refuses other prev closed).mono id ?_
    intro marked
    left
    by_cases same : other.key = call.key
    · rw [same, lookup_insert]
      rfl
    · rw [lookup_insert_ne same]
      exact marked
  refine ⟨?_, nofun⟩
  intro
  left
  rw [lookup_insert]
  rfl

theorem RefusesClosed.sent (found : state.calls[index]? = some call) {since : Time}
    (isMarked : call.stage = .marked since) :
    RefusesClosed { state with
      synPend :=
        if node.isOpen call.key.localPort then state.synPend.erase call.key else state.synPend
      calls := state.calls.set index { call with stage := .sent since } } := by
  intro other mem closed
  rcases mem_or_eq_of_mem_set mem with prev | rfl
  · refine (refuses other prev closed).mono id ?_
    intro marked
    left
    split
    · rename_i isOpen
      have apart : other.key ≠ call.key := by
        intro same
        rw [same, isOpen] at closed
        cases closed
      rw [lookup_erase_ne apart]
      exact marked
    · exact marked
  refine ⟨?_, by simp⟩
  intro
  have pre := refuses call (mem_of_getElem? found) closed
  dsimp only at closed ⊢
  rw [closed, if_neg (by decide)]
  exact pre.pending (by rw [isMarked]; rfl)

theorem RefusesClosed.answered (rst : Reset) :
    RefusesClosed
      { synPend := state.synPend.erase call.key
        calls := state.calls.set index { call with stage := .returned }
        resets := state.resets ++ [(call.packet, rst)] } := by
  intro other mem closed
  rcases mem_or_eq_of_mem_set mem with prev | rfl
  · refine (refuses other prev closed).mono ?_ ?_
    · rintro ⟨e, has, same⟩
      exact ⟨e, mem_append_left _ has, same⟩
    intro marked
    by_cases same : other.key = call.key
    · exact .inr ⟨_, mem_append_right _ (mem_singleton_self _), (Call.tuple_eq same).symm⟩
    left
    rw [lookup_erase_ne same]
    exact marked
  · exact ⟨nofun, fun _ => ⟨_, mem_append_right _ (mem_singleton_self _), rfl⟩⟩

theorem RefusesClosed.unanswered (found : state.calls[index]? = some call)
    (isSent : call.stage = .sent since) (taken : state.synPend.lookup call.key = none) :
    RefusesClosed { state with
      synPend := state.synPend.erase call.key
      calls := state.calls.set index { call with stage := .returned } } := by
  intro other mem closed
  rcases mem_or_eq_of_mem_set mem with prev | rfl
  · refine (refuses other prev closed).mono id ?_
    intro marked
    left
    have apart : other.key ≠ call.key := by
      intro same
      rw [same, taken] at marked
      cases marked
    rw [lookup_erase_ne apart]
    exact marked
  refine ⟨nofun, ?_⟩
  intro
  have pre := refuses call (mem_of_getElem? found) closed
  rcases pre.pending (by rw [isSent]; rfl) with marked | reset
  · rw [taken] at marked
    cases marked
  · exact reset

theorem RefusesClosed.act (used : state.Used)
    (answerable : ∀ call ∈ state.calls, Answerable node call.packet)
    (timely : state.Timely a) : (state.act a).RefusesClosed := by
  have eff := effect_act answerable a
  generalize state.act a = post at eff
  cases eff with
  | received call packet ready => exact refuses.received ready
  | marked found ready now => exact refuses.marked now
  | sent found since now isMarked => exact refuses.sent found isMarked
  | answered found since now isSent pending rst => exact refuses.answered rst
  | unanswered found since now isSent taken => exact refuses.unanswered found isSent taken
  | reaped =>
    rw [used.reapSynPending_eq timely]
    exact refuses
  | nothing => exact refuses

end

/-! ## Open ports -/

def ClosedOnly (state : Handshakes node) : Prop :=
  ∀ entry ∈ state.resets, node.isOpen (field entry.1.payload 2 2) = false

/-- A call for an open port that is about to take the mark does not find one, and no open
port has been reset. -/
structure AcceptsOpen (state : Handshakes node) : Prop where
  taken : ∀ call ∈ state.calls, node.isOpen call.key.localPort →
    call.stage.isSent → state.synPend.lookup call.key = none
  resets : state.ClosedOnly

theorem lookup_erase_of_none (absent : pending.lookup key = none) (erased : SynKey) :
    (pending.erase erased).lookup key = none := by
  cases found : (pending.erase erased).lookup key with
  | none => rfl
  | some =>
    rw [(lookup_erase_eq_some found).2] at absent
    cases absent

section

variable (accepts : state.AcceptsOpen)

include accepts

theorem AcceptsOpen.marked (found : state.calls[index]? = some call) (ready : call.stage = .ready)
    (now : Time) (alone : state.SetsAlone (.step index now)) :
    AcceptsOpen { state with
      synPend := state.synPend.insert call.key now
      calls := state.calls.set index { call with stage := .marked now } } := by
  refine ⟨?_, accepts.resets⟩
  intro other mem isOpen isSent
  rcases mem_or_eq_of_mem_set mem with prev | rfl
  · have apart : other.key ≠ call.key := by
      intro same
      rw [same] at isOpen
      rw [alone call found ready isOpen other prev same] at isSent
      cases isSent
    rw [lookup_insert_ne apart]
    exact accepts.taken other prev isOpen isSent
  · cases isSent

theorem AcceptsOpen.sent (since : Time) :
    AcceptsOpen { state with
      synPend :=
        if node.isOpen call.key.localPort then state.synPend.erase call.key else state.synPend
      calls := state.calls.set index { call with stage := .sent since } } := by
  refine ⟨?_, accepts.resets⟩
  intro other mem isOpen isSent
  rcases mem_or_eq_of_mem_set mem with prev | rfl
  · have pre := accepts.taken other prev isOpen isSent
    split
    · exact lookup_erase_of_none pre call.key
    · exact pre
  dsimp only at isOpen ⊢
  rw [isOpen, if_pos rfl]
  exact lookup_erase _ _

theorem AcceptsOpen.took {resets : List (Packet × Reset)}
    (closed : ClosedOnly { state with resets := resets }) :
    AcceptsOpen
      { synPend := state.synPend.erase call.key
        calls := state.calls.set index { call with stage := .returned }
        resets := resets } := by
  refine ⟨?_, closed⟩
  intro other mem isOpen isSent
  rcases mem_or_eq_of_mem_set mem with prev | rfl
  · exact lookup_erase_of_none (accepts.taken other prev isOpen isSent) call.key
  · cases isSent

theorem AcceptsOpen.answered (mem : call ∈ state.calls) {since : Time}
    (isSent : call.stage = .sent since) (pending : (state.synPend.lookup call.key).isSome)
    (rst : Reset) : ClosedOnly { state with resets := state.resets ++ [(call.packet, rst)] } := by
  intro e has
  rcases mem_append.mp has with prev | new
  · exact accepts.resets e prev
  rw [mem_singleton.mp new]
  have port : field call.packet.payload 2 2 = call.key.localPort := by
    rw [(synKeyForPacket_eq_some call.keyed).2]
  rw [port]
  apply Bool.eq_false_iff.mpr
  intro isOpen
  rw [accepts.taken call mem isOpen (by rw [isSent]; rfl)] at pending
  cases pending

theorem AcceptsOpen.act (answerable : ∀ call ∈ state.calls, Answerable node call.packet)
    (alone : state.SetsAlone a) : (state.act a).AcceptsOpen := by
  have eff := effect_act answerable a
  generalize state.act a = post at eff
  cases eff with
  | received call packet ready =>
    refine ⟨?_, accepts.resets⟩
    intro other mem isOpen isSent
    rcases mem_append.mp mem with prev | new
    · exact accepts.taken other prev isOpen isSent
    · rw [mem_singleton.mp new, ready] at isSent
      cases isSent
  | marked found ready now => exact accepts.marked found ready now alone
  | sent found since => exact accepts.sent since
  | answered found since now isSent pending rst =>
    exact accepts.took (accepts.answered (mem_of_getElem? found) isSent pending rst)
  | unanswered => exact accepts.took accepts.resets
  | reaped now =>
    refine ⟨?_, accepts.resets⟩
    intro other mem isOpen isSent
    cases found : (state.reapSynPending now).synPend.lookup other.key with
    | none => rfl
    | some =>
      have pre := accepts.taken other mem isOpen isSent
      rw [lookup_reap_eq_some found] at pre
      cases pre
  | nothing => exact accepts

end

/-- No reset has been sent for an open port, nor is one when some call moves on. -/
def SparesOpen (state : Handshakes node) : Prop :=
  state.ClosedOnly ∧ ∀ index now, (state.act (.step index now)).ClosedOnly

theorem resets_act_sent (found : state.calls[index]? = some call)
    (answerable : Answerable node call.packet) (isSent : call.stage.isSent)
    (pending : (state.synPend.lookup call.key).isSome) (now : Time) :
    ∃ rst, (call.packet, rst) ∈ (state.act (.step index now)).resets := by
  cases stage : call.stage with
  | sent =>
    rcases sendRST_eq { state with synPend := state.synPend.erase call.key } answerable with
      ⟨rst, same⟩
    refine ⟨rst, ?_⟩
    simp only [act, found, step, stage, takeSynPending, if_pos pending, same]
    exact mem_append_right _ (mem_singleton_self _)
  | ready | marked | returned =>
    rw [stage] at isSent
    cases isSent

theorem acceptsOpen_iff (answerable : ∀ call ∈ state.calls, Answerable node call.packet) :
    state.AcceptsOpen ↔ state.SparesOpen := by
  constructor
  · intro accepts
    refine ⟨accepts.resets, fun index now => ?_⟩
    have eff := effect_act answerable (.step index now)
    generalize state.act (.step index now) = post at eff
    cases eff with
    | marked | sent | unanswered | nothing => exact accepts.resets
    | answered found since now isSent pending rst =>
      exact accepts.answered (mem_of_getElem? found) isSent pending rst
  intro spares
  refine ⟨?_, spares.1⟩
  intro call mem isOpen isSent
  by_contra has
  rcases mem_iff_getElem?.mp mem with ⟨index, found⟩
  rcases resets_act_sent found (answerable call mem) isSent
    (Option.isSome_iff_ne_none.mpr has) 0 with ⟨rst, ans⟩
  have closed := spares.2 index 0 _ ans
  rw [(synKeyForPacket_eq_some call.keyed).2] at isOpen
  rw [isOpen] at closed
  cases closed

/-- If a copy sets the mark too early, then the first call will find it. -/
theorem AcceptsOpen.setsAlone (accepts : (state.act a).AcceptsOpen) : state.SetsAlone a := by
  cases a with
  | inbound | reap => trivial
  | step =>
    intro call found ready isOpen other mem same
    by_contra isSent
    rw [Bool.not_eq_false] at isSent
    have apart : other ≠ call := by
      rintro rfl
      rw [ready] at isSent
      cases isSent
    rw [Handshakes.act, found] at accepts
    dsimp only [step] at accepts
    rw [ready] at accepts
    have taken := accepts.taken other (mem_set_of_ne found _ mem apart)
      (by rw [same]; exact isOpen) isSent
    rw [same, lookup_insert] at taken
    cases taken

structure Intact (state : Handshakes node) : Prop where
  answerable : ∀ call ∈ state.calls, Answerable node call.packet
  used : state.Used
  refuses : state.RefusesClosed

theorem intact_start (node : Node) : (start node).Intact :=
  ⟨nofun, nofun, nofun⟩

theorem answerable_set (answerable : ∀ call ∈ state.calls, Answerable node call.packet)
    (found : state.calls[index]? = some call) (stage : Stage) :
    ∀ other ∈ state.calls.set index { call with stage := stage }, Answerable node other.packet := by
  intro other mem
  rcases mem_or_eq_of_mem_set mem with prev | rfl
  · exact answerable other prev
  · exact answerable call (mem_of_getElem? found)

theorem answerable_act (answerable : ∀ call ∈ state.calls, Answerable node call.packet)
    (proper : state.Proper a) : ∀ call ∈ (state.act a).calls, Answerable node call.packet := by
  have eff := effect_act answerable a
  generalize state.act a = post at eff
  cases eff with
  | received call packet =>
    intro other mem
    rcases mem_append.mp mem with prev | new
    · exact answerable other prev
    · rw [mem_singleton.mp new, packet]
      exact proper
  | marked found | sent found
  | answered found | unanswered found => exact answerable_set answerable found _
  | reaped | nothing => exact answerable

theorem Intact.act (intact : state.Intact) (regular : state.Regular a) : (state.act a).Intact where
  answerable := answerable_act intact.answerable regular.2
  used := intact.used.act intact.answerable a
  refuses := intact.refuses.act intact.used intact.answerable regular.1

/-- The connections of returned calls for closed ports have been reset, and when all calls
have returned there are no marks. -/
structure Settled (state : Handshakes node) : Prop where
  reset : ∀ call ∈ state.calls, node.isOpen call.key.localPort = false →
    call.stage = .returned → state.WasReset call.packet
  cleared : (∀ call ∈ state.calls, call.stage = .returned) → state.synPend = ∅

theorem Intact.settled (intact : state.Intact) : state.Settled where
  reset call mem closed ret := (intact.refuses call mem closed).returned ret
  cleared all := by
    have keys : state.synPend.keys = [] := by
      apply eq_nil_iff_forall_not_mem.mpr
      intro key has
      rcases Option.isSome_iff_exists.mp (lookup_isSome.mpr has) with ⟨since, found⟩
      rcases intact.used key since found with ⟨call, mem, -, inUse⟩
      rw [all call mem] at inUse
      cases inUse
    exact ext (map_eq_nil_iff.mp keys)

/-- In every run in which no call lasts too long and all SYNs can be answered, SYNs to
closed ports are answered with resets and leave no marks. SYNs to open ports are not
answered with resets, whoever moves next, exactly if their copies set no marks between
`Send` and the look at the mark. -/
theorem resets_closed_iff {actions : List Action}
    (regular : (machine node).Obeys Regular (start node) actions) :
    (machine node).Always Settled (start node) actions ∧
      ((machine node).Always SparesOpen (start node) actions ↔
        (machine node).Obeys SetsAlone (start node) actions) := by
  have intact : ∀ earlier later, actions = earlier ++ later →
      ((machine node).run (start node) earlier).Intact := by
    rintro earlier later rfl
    exact @Machine.Obeys.invariant (Handshakes node) Action (machine node) Regular Intact
      (start node) earlier regular.append.1 (intact_start node)
      fun _ _ intact regular => intact.act regular
  refine ⟨fun earlier later split => (intact earlier later split).settled, ?_⟩
  have accepts := @Machine.Obeys.always_iff (Handshakes node) Action (machine node) Intact
    AcceptsOpen Regular SetsAlone (fun _ _ intact regular => intact.act regular)
    (fun _ _ intact accepts _ =>
      ⟨AcceptsOpen.setsAlone, fun alone => accepts.act intact.answerable alone⟩)
    (start node) actions regular (intact_start node) ⟨nofun, nofun⟩
  rw [← accepts]
  constructor
  · intro spares earlier later split
    exact (acceptsOpen_iff (intact earlier later split).answerable).mpr (spares earlier later split)
  intro always earlier later split
  exact (acceptsOpen_iff (intact earlier later split).answerable).mp (always earlier later split)

end Handshakes

def synAck (pkt : Packet) : Packet :=
  { is6 := pkt.is6
    src := pkt.dst
    dst := pkt.src
    protocol := protocolTCP
    payload := (pkt.payload.drop 2).take 2 ++ pkt.payload.take 2 ++ List.replicate 8 0 ++
      [80, flagSYN ||| flagACK] ++ List.replicate 6 0 }

theorem synAck_answers (syn : isSynOnly pkt) :
    (synAck pkt).protocol = protocolTCP ∧ isSynAck (synAck pkt) ∧
      (synAck pkt).dstAddr = pkt.srcAddr ∧
      field (synAck pkt).payload 0 2 = field pkt.payload 2 2 ∧
      field (synAck pkt).payload 2 2 = field pkt.payload 0 2 := by
  rcases pkt with ⟨is6, src, dst, protocol, pl⟩
  match pl, syn with
  | first :: y :: third :: fourth :: rest, _ => exact ⟨rfl, rfl, rfl, rfl, rfl⟩

def webServer : Node where
  vtcp := ⟨fun bytes => some (segmentOf bytes), fun _ => 1⟩
  localAddr is6 := if is6 then [0xfd] ++ List.replicate 14 0 ++ [2] else [10, 0, 0, 2]
  drops addr := addr.bytes = [255, 255, 255, 255]
  peerIDByVirtAddr _ := ascii "alice"
  isOpen port := port = 80
  answer := synAck
  answers _ syn := synAck_answers syn

def synTo (port : UInt8) : Packet :=
  { is6 := false
    src := [10, 0, 0, 3]
    dst := [10, 0, 0, 2]
    protocol := protocolTCP
    payload := [18, 52, 0, port] ++ List.replicate 8 0 ++ [80, flagSYN] ++ List.replicate 6 0 }

namespace Handshakes

def refused : List Action :=
  [.inbound (synTo 81), .inbound (synTo 81), .step 0 1, .step 1 2, .step 0 3, .step 0 4,
    .reap 5, .step 1 6, .step 1 7]

theorem refused_reset :
    (machine webServer).Obeys Regular (start webServer) refused ∧
      (machine webServer).Obeys SetsAlone (start webServer) refused ∧
      ((machine webServer).run (start webServer) refused).Settled ∧
      ((machine webServer).run (start webServer) refused).SparesOpen ∧
      ((machine webServer).run (start webServer) refused).resets.length = 1 := by
  have regular : (machine webServer).Obeys Regular (start webServer) refused := by decide +kernel
  have alone : (machine webServer).Obeys SetsAlone (start webServer) refused := by decide +kernel
  rcases resets_closed_iff regular with ⟨settled, spares⟩
  exact ⟨regular, alone, settled refused [] (append_nil _).symm,
    spares.mpr alone refused [] (append_nil _).symm, by decide +kernel⟩

/-- Two copies of a SYN to an open port. `Send` with the first one returns, the second one
sets its mark, and the first call takes that. -/
def twoCopies : List Action :=
  [.inbound (synTo 80), .inbound (synTo 80), .step 0 1, .step 0 2, .step 1 3, .step 0 4]

theorem twoCopies_reset :
    (machine webServer).Obeys Regular (start webServer) twoCopies ∧
      ∃ entry ∈ ((machine webServer).run (start webServer) twoCopies).resets,
        entry.1 = synTo 80 ∧ webServer.isOpen (field entry.1.payload 2 2) = true := by
  decide +kernel

end Handshakes

end Peerscale.Softun
