/-
This file continues the refinement of one instance with the replication of logs. A request to
append is cut from the whole log of its sender, and its handler merges that log into its own.
The reply confirms the sender's log when the request was sent on time; a handler that takes the
branch for `PrevLogIndex = -1` confirms only what is empty.
-/

import RaftInMotion.Refinement.Merge
import RaftInMotion.Refinement.Server

namespace RaftInMotion

open Replication TermLog

variable {n : Nat} {Command : Type} {trust late : Prop} {floor : ℕ} {a a' : Spec n Command}
  {s p : Fin n} {rf next : Raft n Command}

/-! ### Requests -/

/-- The arguments are cut from the log of the request at `nextIndex`. -/
structure CutFrom (trust : Prop) (request : Request (LogEntry Command)) (nextIndex : ℕ)
    (args : AppendEntriesArgs n Command) : Prop where
  term : request.term = args.term
  within : nextIndex ≤ request.log.length
  prevLogIndex : args.prevLogIndex = nextIndex - 1
  prevLogTerm : args.prevLogTerm = lastTerm (request.log.take nextIndex)
  entries : args.entries = request.log.drop nextIndex
  leaderCommit : trust → args.leaderCommit + 1 = request.commit

/-- The arguments are those of a request of the protocol, in the name of another member. -/
structure Sends (trust : Prop) (a : Spec n Command) (peer : Fin n) (nextIndex : ℕ)
    (args : AppendEntriesArgs n Command) : Prop where
  led : ∃ leader, a.leader args.term = some leader ∧ leader ≠ peer
  request : ∃ request ∈ a.sent, CutFrom trust request nextIndex args

theorem Sends.mono {nextIndex : ℕ} {args : AppendEntriesArgs n Command}
    (sends : Sends trust a s nextIndex args) (grows : Extends a a') :
    Sends trust a' s nextIndex args :=
  ⟨sends.led.imp fun _ led => ⟨grows.leader led.1, led.2⟩,
    sends.request.imp fun _ request => ⟨grows.sent request.1, request.2⟩⟩

namespace Mirrors

/-! ### Handling a request -/

/-- A request of the protocol makes its receiver a follower of its term. -/
theorem heed (late : Prop) (mirrors : Mirrors trust a s rf) (invariant : Invariant floor a)
    {term : ℕ}
    (alive : rf.state ≠ .dead) (reached : rf.currentTerm ≤ term)
    (led : ∃ leader, a.leader term = some leader ∧ leader ≠ s) :
    ∃ a', Moves late s a a' ∧ Mirrors trust a' s (rf.heed term) := by
  unfold Raft.heed
  split_ifs with follows
  · refine mirrors.becomeFollower late invariant (reached.lt_or_eq.imp_right fun same => ⟨same, ?_⟩)
    rcases state : rf.state with _ | _ | _ | _
    · exact absurd follows (by simp [same, state])
    · rfl
    · obtain ⟨leader, isLeader, other⟩ := led
      have leads := invariant.elections.leading (mirrors.leader state)
      rw [mirrors.term, same, isLeader] at leads
      exact absurd (Option.some.inj leads) other
    · exact absurd state alive
  · exact ⟨a, Moves.refl late s a, mirrors⟩

/-- A follower takes over the merge of its log with the log of a request. -/
theorem accept (late : Prop) (mirrors : Mirrors trust a s rf) (idle : rf.state = .follower)
    {request : Request (LogEntry Command)} {result : List (LogEntry Command)}
    (sent : request ∈ a.sent) (current : request.term = rf.currentTerm)
    (other : a.leader request.term ≠ some s) (adopts : Adopts rf.log request.log result) :
    ∃ a', Moves late s a a' ∧ Mirrors trust a' s { rf with log := result } := by
  refine ⟨a.accept s result, .single (.accept a request result sent
    (current.trans mirrors.term.symm) (mirrors.follower idle) other (mirrors.log ▸ adopts))
    fun leads _ => leads, ⟨mirrors.id, mirrors.term, ?_, mirrors.follower, mirrors.candidate,
      mirrors.leader, mirrors.vote, mirrors.own, mirrors.commit, mirrors.matched⟩⟩
  simp [Config.accept]

/-- A member confirms what it holds of the leader's log of its term. -/
theorem confirm (late : Prop) (mirrors : Mirrors trust a s rf) {part : List (LogEntry Command)}
    (inLeader : part <+: a.leaderLog rf.currentTerm) (held : part <+: rf.log) :
    ∃ a', Moves late s a a' ∧ Mirrors trust a' s rf ∧ a'.sent = a.sent ∧
      part.length ≤ a'.acked s rf.currentTerm := by
  by_cases higher : a.acked s rf.currentTerm ≤ part.length
  · have step : Step late s a (a.confirm s part.length) := by
      refine .confirm a part.length ?_ ?_ ?_ <;> rw [mirrors.term]
      · exact higher
      · exact inLeader.length_le
      · rw [← List.prefix_iff_eq_take.mp inLeader, mirrors.log]
        exact held
    refine ⟨_, .single step fun leads _ => leads, ⟨mirrors.id, mirrors.term, mirrors.log,
      mirrors.follower, mirrors.candidate, mirrors.leader, mirrors.vote, mirrors.own,
      mirrors.commit, fun trusted leads q other => ?_⟩, rfl, ?_⟩
    · simpa [Config.confirm, other] using mirrors.matched trusted leads q other
    · simp [Config.confirm, mirrors.term]
  · exact ⟨a, Moves.refl late s a, mirrors, rfl, by omega⟩

/-- A member takes over how much a request counts as committed. -/
theorem learn (late : Prop) (mirrors : Mirrors trust a s rf) {request : Request (LogEntry Command)}
    (sent : request ∈ a.sent) (current : request.term = rf.currentTerm)
    (held : request.log <+: rf.log) (more : a.commit s < request.commit) (ready : ℕ) :
    ∃ a', Moves late s a a' ∧ Mirrors trust a' s { rf with
      commitIndex := min (request.commit - 1) (rf.log.length - 1), newCommitReady := ready } := by
  refine ⟨a.learn s (min request.commit (a.log s).length), .single (.learn a request sent
    (current.trans mirrors.term.symm) (mirrors.log ▸ held) more) fun leads _ => leads,
    ⟨mirrors.id, mirrors.term, mirrors.log, mirrors.follower, mirrors.candidate,
      mirrors.leader, mirrors.vote, mirrors.own, fun _ => ?_, mirrors.matched⟩⟩
  simp only [Config.learn, Function.update_self, mirrors.log]
  omega

/-- What a request stores, and what it confirms, on time. -/
theorem store (late : Prop) (mirrors : Mirrors trust a s rf) (invariant : Invariant floor a)
    (idle : rf.state = .follower) {nextIndex prevLogIndex : ℕ} {args : AppendEntriesArgs n Command}
    (sends : Sends trust a s nextIndex args) (current : args.term = rf.currentTerm)
    (position : args.prevLogIndex = prevLogIndex) {held : LogEntry Command}
    (found : rf.log[prevLogIndex]? = some held) (same : args.prevLogTerm = held.term) :
    ∃ a', Moves late s a a' ∧ Mirrors trust a' s (rf.store args prevLogIndex) ∧
      ((∀ leader, a.leader args.term = some leader → a.term leader = args.term) →
        nextIndex + args.entries.length ≤ a'.acked s args.term) := by
  obtain ⟨leader, led, other⟩ := sends.led
  obtain ⟨request, sent, cut⟩ := sends.request
  have next : nextIndex = prevLogIndex + 1 := by
    have := cut.prevLogIndex
    omega
  subst next
  obtain ⟨previous, foundSent⟩ : ∃ previous, request.log[prevLogIndex]? = some previous :=
    ⟨_, List.getElem?_eq_getElem cut.within⟩
  have sameTerm : held.term = previous.term := by
    have := cut.prevLogTerm
    rw [take_succ_of_getElem? foundSent, lastTerm_concat] at this
    exact Int.ofNat_inj.mp (same.symm.trans this)
  have rooted : Rooted a.leaderLog rf.log := mirrors.log ▸ (invariant.logs.held s).rooted
  have adopts := cut.entries ▸ insertEntries_adopts
    (rooted.matches (invariant.logs.sent sent).rooted) found foundSent sameTerm
  obtain ⟨a₁, accepts, accepted⟩ := mirrors.accept late idle sent
    (cut.term.trans current) (by rw [cut.term, led]; exact fun same => other (Option.some.inj same))
    adopts
  have sound := invariant.steps accepts.steps
  -- On time, the log of the request is part of the leader's log.
  obtain ⟨a₂, confirms, confirmed, grows, acked⟩ : ∃ a₂, Moves late s a₁ a₂ ∧
      Mirrors trust a₂ s { rf with log := Raft.insertEntries rf.log prevLogIndex args.entries } ∧
      Extends a₁ a₂ ∧
      ((∀ leader, a.leader args.term = some leader → a.term leader = args.term) →
        prevLogIndex + 1 + args.entries.length ≤ a₂.acked s args.term) := by
    by_cases onTime : ∀ leader, a.leader args.term = some leader → a.term leader = args.term
    · obtain ⟨sender, isSender, timely⟩ := invariant.logs.request sent
      have inLeader : request.log <+: a.leaderLog rf.currentTerm := by
        rw [← current, ← cut.term]
        refine timely.resolve_right fun later => ?_
        have := onTime sender (cut.term ▸ isSender)
        rw [cut.term] at later
        omega
      obtain ⟨a₂, confirms, confirmed, -, acked⟩ := accepted.confirm late
        (inLeader.trans (sound.2.leaderLog _)) adopts.sent_part
      refine ⟨a₂, confirms, confirmed, (sound.1.steps confirms.steps).2, fun _ => ?_⟩
      rw [cut.entries, List.length_drop, current]
      have := cut.within
      exact le_trans (by omega) acked
    · exact ⟨a₁, Moves.refl late s a₁, accepted, Extends.refl a₁,
        fun timely => absurd timely onTime⟩
  unfold Raft.store
  dsimp only
  split_ifs with more
  · by_cases trusted : trust
    · have commit := cut.leaderCommit trusted
      have own := confirmed.commit trusted
      obtain ⟨a₃, learns, learned⟩ := confirmed.learn late
        ((sound.2.trans grows).sent sent) (cut.term.trans current) adopts.sent_part
        (by dsimp only at own; omega) (rf.newCommitReady + 1)
      have later := ((sound.1.steps confirms.steps).1.steps learns.steps).2
      refine ⟨a₃, (accepts.trans confirms).trans learns, ?_,
        fun onTime => (acked onTime).trans (later.acked s _)⟩
      rwa [← commit, Int.add_sub_cancel] at learned
    · exact ⟨a₂, accepts.trans confirms, ⟨confirmed.id, confirmed.term, confirmed.log,
        confirmed.follower, confirmed.candidate, confirmed.leader, confirmed.vote, confirmed.own,
        fun trusts => absurd trusts trusted, confirmed.matched⟩, acked⟩
  · exact ⟨a₂, accepts.trans confirms, confirmed, acked⟩

/-- A request to append is handled by moves of the protocol. -/
theorem appendEntries (late : Prop) (mirrors : Mirrors trust a s rf) (invariant : Invariant floor a)
    {nextIndex : ℕ} {args : AppendEntriesArgs n Command} {reply : AppendEntriesReply}
    (sends : Sends trust a s nextIndex args)
    (handled : rf.appendEntries args = some (next, reply)) :
    ∃ a', Moves late s a a' ∧ Mirrors trust a' s next ∧ (reply.success = true →
      (∀ leader, a.leader args.term = some leader → a.term leader = args.term) →
      (rf.state ≠ .dead → rf.currentTerm ≤ args.term → args.prevLogIndex = -1 → rf.log = [] →
        args.entries = []) →
      nextIndex + args.entries.length ≤ a'.acked s args.term) := by
  cases Raft.appendEntries_outcome handled with
  | dead gone =>
    exact ⟨a, Moves.refl late s a, mirrors, fun succeeds => by cases succeeds⟩
  | stale alive older _ _ same term fails =>
    refine ⟨a, Moves.refl late s a, ?_,
      fun succeeds => absurd (fails.symm.trans succeeds) (by simp)⟩
    rcases same with rfl | rfl
    · exact mirrors
    · exact mirrors.persist
  | reject alive reached _ term fails =>
    obtain ⟨a', moves, heeds⟩ := mirrors.heed late invariant alive reached sends.led
    exact ⟨a', moves, heeds.persist,
      fun succeeds => absurd (fails.symm.trans succeeds) (by simp)⟩
  | blank alive reached _ term first empty =>
    obtain ⟨a', moves, heeds⟩ := mirrors.heed late invariant alive reached sends.led
    refine ⟨a', moves, heeds.persist, fun _ _ seen => ?_⟩
    obtain ⟨request, -, cut⟩ := sends.request
    have start := cut.prevLogIndex
    rw [seen alive reached first empty, List.length_nil]
    exact le_trans (by omega) (Nat.zero_le _)
  | accept alive reached _ term prevLogIndex position held found same live =>
    obtain ⟨a₁, moves, heeds⟩ := mirrors.heed late invariant alive reached sends.led
    have sound := invariant.steps moves.steps
    obtain ⟨a₂, stores, stored, acked⟩ := heeds.store late sound.1 (Raft.heed_state rf _)
      (sends.mono sound.2) (Raft.heed_currentTerm reached).symm position
      (by rw [Raft.heed_log]; exact found) same
    refine ⟨a₂, moves.trans stores, stored.persist, fun _ onTime _ => acked fun leader led => ?_⟩
    obtain ⟨sender, isSender, other⟩ := sends.led
    have known := sound.2.leader isSender
    obtain rfl : sender = leader := Option.some.inj (known.symm.trans led)
    rw [moves.steps.frame.term other]
    exact onTime sender isSender

/-! ### The leader's side -/

/-- A request that is built in the term it is sent in, or at any later time, when that is
allowed, is a request of the protocol. -/
theorem appendEntriesArgs (late : Prop) (mirrors : Mirrors trust a s rf) {call : AppendCall n}
    {built : ℕ × AppendEntriesArgs n Command} (led : a.leader call.savedCurrentTerm = some s)
    (other : call.peer ≠ s)
    (onTime : late ∨ a.role s = .leader ∧ a.term s = call.savedCurrentTerm)
    (sent : rf.appendEntriesArgs call = some built) :
    ∃ a', Moves late s a a' ∧ Mirrors trust a' s rf ∧
      built.2.term = call.savedCurrentTerm ∧ Sends trust a' call.peer built.1 built.2 := by
  obtain ⟨within, term, -, position, entries, commit⟩ := Raft.appendEntriesArgs_fields sent
  let request : Request (LogEntry Command) := ⟨call.savedCurrentTerm, rf.log, a.commit s⟩
  refine ⟨a.send request, .single (.send a request led mirrors.log.symm rfl onTime)
    fun leads _ => leads, ⟨mirrors.id, mirrors.term, mirrors.log, mirrors.follower,
      mirrors.candidate, mirrors.leader, mirrors.vote, mirrors.own, mirrors.commit,
      mirrors.matched⟩, term, ⟨s, term.symm ▸ led, other.symm⟩, request, Set.mem_insert _ _, ?_⟩
  exact ⟨term.symm, within, position, appendEntriesArgs_lastTerm sent, entries,
    fun trusted => commit ▸ mirrors.commit trusted⟩

/-- The leader records an acknowledgement that is truthful. -/
theorem acknowledge (mirrors : Mirrors trust a s rf) {peer : Fin n} {count : ℕ}
    (acked : trust → count ≤ a.acked peer rf.currentTerm) :
    Mirrors trust a s (rf.acknowledge peer count) := by
  refine ⟨mirrors.id, mirrors.term, mirrors.log, mirrors.follower, mirrors.candidate,
    mirrors.leader, mirrors.vote, mirrors.own, mirrors.commit, fun trusted leads q other => ?_⟩
  have old := mirrors.matched trusted leads q other
  have new := acked trusted
  simp only [Raft.acknowledge, Function.update_apply]
  split_ifs with same
  · subst same
    omega
  · exact old

/-- A majority has confirmed what the leader counts as held by one. -/
theorem countable_confirmed (mirrors : Mirrors trust a s rf) (invariant : Invariant floor a)
    (trusted : trust) (leads : rf.state = .leader) {index : ℕ} (within : index < rf.log.length)
    (many : rf.matchCount index * 2 > rf.peerIds.length + 1) :
    ∃ group : Finset (Fin n), Majority group ∧
      ∀ q ∈ group, index + 1 ≤ a.acked q rf.currentTerm := by
  refine ⟨Finset.univ.filter fun q => q = rf.id ∨ (index : Int) ≤ rf.matchIndex q, ?_,
    fun q member => ?_⟩
  · have := rf.peerIds_length
    rw [Majority, ← Raft.matchCount_eq, Fintype.card_fin]
    omega
  · have holds := (Finset.mem_filter.mp member).2
    rw [mirrors.id] at holds
    by_cases own : q = s
    · have led := invariant.elections.leading (mirrors.leader leads)
      rw [own, ← mirrors.term, invariant.confirmed.own led, invariant.logs.leading led,
        mirrors.log]
      exact within
    · have := mirrors.matched trusted leads q own
      have := holds.resolve_left own
      omega

/-- The leader commits by counting. -/
theorem advanceCommit (late : Prop) (mirrors : Mirrors trust a s rf) (invariant : Invariant floor a)
    (leads : rf.state = .leader) (ready : ℕ) :
    ∃ a', Moves late s a a' ∧
      Mirrors trust a' s { rf with commitIndex := rf.advanceCommit, newCommitReady := ready } ∧
      (trust → rf.advanceCommit ≠ rf.commitIndex → ∃ part, Chosen a' rf.currentTerm part ∧
        part <+: rf.log ∧ rf.advanceCommit + 1 = part.length) := by
  rcases Raft.advanceCommit_cases rf with same | ⟨index, moved, above, within, counted⟩
  · rw [same]
    exact ⟨a, Moves.refl late s a, ⟨mirrors.id, mirrors.term, mirrors.log, mirrors.follower,
      mirrors.candidate, mirrors.leader, mirrors.vote, mirrors.own, mirrors.commit,
      mirrors.matched⟩, fun _ differs => absurd rfl differs⟩
  by_cases trusted : trust
  · obtain ⟨stamp, many⟩ : (rf.log[index]?.map LogEntry.term) = some rf.currentTerm ∧
        rf.matchCount index * 2 > rf.peerIds.length + 1 := by
      simpa only [Raft.countable, Bool.and_eq_true, decide_eq_true_eq] using counted
    obtain ⟨entry, found, isStamp⟩ := Option.map_eq_some_iff.mp stamp
    obtain ⟨group, majority, confirmed⟩ :=
      mirrors.countable_confirmed invariant trusted leads within many
    have part : rf.log.take index ++ [entry] <+: rf.log := by
      rw [← take_succ_of_getElem? found]
      exact List.take_prefix _ _
    have length : (rf.log.take index).length = index := by
      rw [List.length_take]
      omega
    have led := invariant.elections.leading (mirrors.leader leads)
    have inLeader := invariant.logs.leading led
    rw [mirrors.term] at led inLeader
    rw [mirrors.log] at inLeader
    have step : Step late s a (a.learn s ((rf.log.take index).length + 1)) :=
      .settle a (rf.log.take index) entry group (mirrors.leader leads) (mirrors.log ▸ part)
        (isStamp.trans mirrors.term.symm) majority (by rw [length, mirrors.term]; exact confirmed)
    refine ⟨_, .single step fun leads _ => leads, ⟨mirrors.id, mirrors.term, mirrors.log,
      mirrors.follower, mirrors.candidate, mirrors.leader, mirrors.vote, mirrors.own, fun _ => ?_,
      mirrors.matched⟩, fun _ _ => ⟨rf.log.take index ++ [entry], ?_, part, ?_⟩⟩
    · rw [length]
      simp [Config.learn, moved]
    · refine ⟨⟨_, _, rfl, isStamp⟩, inLeader ▸ part, ⟨s, led⟩, group, majority, ?_⟩
      rw [List.length_append, length]
      exact confirmed
    · rw [List.length_append, length]
      simp [moved]
  · exact ⟨a, Moves.refl late s a, ⟨mirrors.id, mirrors.term, mirrors.log, mirrors.follower,
      mirrors.candidate, mirrors.leader, mirrors.vote, mirrors.own,
      fun trusts => absurd trusts trusted, mirrors.matched⟩,
      fun trusts => absurd trusts trusted⟩

/-- The leader receives a reply; under trust, one that it does not count wrongly. -/
theorem receiveAppend (late : Prop) (mirrors : Mirrors trust a s rf) (invariant : Invariant floor a)
    {call : AppendCall n} {nextIndex : ℕ} {args : AppendEntriesArgs n Command}
    {reply : AppendEntriesReply}
    (truthful : trust → rf.state = .leader → call.savedCurrentTerm = reply.term →
      reply.success = true → nextIndex + args.entries.length ≤ a.acked call.peer rf.currentTerm)
    (received : rf.receiveAppend call nextIndex args reply = some next) :
    ∃ a', Moves late s a a' ∧ Mirrors trust a' s next ∧
      (trust → next.commitIndex ≠ rf.commitIndex → ∃ part, Chosen a' next.currentTerm part ∧
        part <+: next.log ∧ next.commitIndex + 1 = part.length) := by
  rcases Raft.receiveAppend_cases received with ⟨newer, rfl⟩ | ⟨-, core, -⟩ |
    ⟨-, leads, saved, succeeds, matched, ready, rfl, rfl, -⟩
  · obtain ⟨a', moves, follows⟩ := mirrors.becomeFollower late invariant (Or.inl newer)
    exact ⟨a', moves, follows, fun _ differs => absurd rfl differs⟩
  · exact ⟨a, Moves.refl late s a, mirrors.of_core core,
      fun _ differs => absurd (congrArg Raft.commitIndex core) differs⟩
  · exact (mirrors.acknowledge fun trusted => truthful trusted leads saved succeeds).advanceCommit
      late invariant leads ready

/-- The leader appends a command to its log. -/
theorem submit (late : Prop) (mirrors : Mirrors trust a s rf) {command : Command} {index : ℤ}
    (submitted : rf.submit command = some (next, index)) :
    ∃ a', Moves late s a a' ∧ Mirrors trust a' s next := by
  rcases Raft.submit_cases submitted with ⟨rfl, -, -⟩ | ⟨rfl, leads, -⟩
  · exact ⟨a, Moves.refl late s a, mirrors⟩
  · have step : Step late s a (a.append s ⟨command, rf.currentTerm⟩) :=
      .append a _ (mirrors.leader leads) mirrors.term.symm
    refine ⟨_, .single step fun leads _ => leads, ⟨mirrors.id, mirrors.term, ?_, mirrors.follower,
      mirrors.candidate, mirrors.leader, mirrors.vote, mirrors.own, mirrors.commit,
      fun trusted leads q other => ?_⟩⟩
    · simp [Config.append, Config.confirm, mirrors.log]
    · simpa [Config.append, Config.confirm, other] using mirrors.matched trusted leads q other

theorem kill (mirrors : Mirrors trust a s rf) (killed : rf.kill = some next) :
    Mirrors trust a s next := by
  rcases Raft.kill_cases killed with ⟨-, rfl⟩ | ⟨-, rfl⟩
  · exact mirrors
  · refine ⟨mirrors.id, mirrors.term, mirrors.log, fun follows => ?_, fun runs => ?_,
      fun leads => ?_, mirrors.vote, fun active => ?_, mirrors.commit, fun _ leads => ?_⟩
    · cases follows
    · cases runs
    · cases leads
    · rcases active with runs | leads
      · cases runs
      · cases leads
    · cases leads

end Mirrors

end RaftInMotion
