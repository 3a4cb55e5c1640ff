/-
This file develops logs whose entries carry the term in which they were created. A reference
assigns to every term one log, the log of whoever writes in that term; a log is rooted in the
reference when each of its prefixes is a prefix of the reference log of the term it ends in.
Rooted logs match: equal terms at one position force equal prefixes up to it. The file also
gives the order by which a voter compares logs, the way a receiver merges a log it is sent
into its own, and the fact on which elections rest: a rooted log that is at least as up to
date as one holding a prefix holds that prefix too, when all later reference logs hold it.
-/

import Mathlib.Data.List.Infix
import Mathlib.Data.Int.Order.Basic

namespace TermLog

/-- An entry carries the term in which it was created. -/
class Stamped (Entry : Type*) where
  /-- The term in which the entry was created. -/
  term : Entry → ℕ

open Stamped

variable {Entry : Type*} [Stamped Entry]

/-! ### Prefixes -/

omit [Stamped Entry] in
theorem prefix_comparable {first second whole : List Entry} (left : first <+: whole)
    (right : second <+: whole) : first <+: second ∨ second <+: first :=
  List.prefix_or_prefix_of_prefix left right

omit [Stamped Entry] in
theorem prefix_of_comparable_of_length_le {first second whole : List Entry}
    (left : first <+: whole) (right : second <+: whole) (short : first.length ≤ second.length) :
    first <+: second :=
  List.prefix_of_prefix_length_le left right short

omit [Stamped Entry] in
theorem getElem?_of_part {first log : List Entry} (part : first <+: log) {index : ℕ}
    (within : index < first.length) : log[index]? = first[index]? := by
  obtain ⟨rest, rfl⟩ := part
  exact List.getElem?_append_left within

omit [Stamped Entry] in
theorem take_of_part {first log : List Entry} (part : first <+: log) {count : ℕ}
    (within : count ≤ first.length) : first.take count = log.take count := by
  obtain ⟨rest, rfl⟩ := part
  rw [List.take_append_of_le_length within]

omit [Stamped Entry] in
theorem take_succ_of_getElem? {log : List Entry} {index : ℕ} {entry : Entry}
    (found : log[index]? = some entry) : log.take (index + 1) = log.take index ++ [entry] := by
  rw [List.take_add_one, found, Option.toList_some]

/-! ### Term order -/

/-- The terms of a log never decrease. -/
def Sorted (log : List Entry) : Prop :=
  log.Pairwise fun earlier later => term earlier ≤ term later

theorem Sorted.of_part {first log : List Entry} (sorted : Sorted log) (part : first <+: log) :
    Sorted first :=
  List.Pairwise.sublist part.sublist sorted

theorem Sorted.append {log : List Entry} {entry : Entry} (sorted : Sorted log)
    (bound : ∀ other ∈ log, term other ≤ term entry) : Sorted (log ++ [entry]) := by
  refine List.pairwise_append.mpr ⟨sorted, List.pairwise_singleton _ _, ?_⟩
  intro other member last isLast
  rw [List.mem_singleton.mp isLast]
  exact bound other member

theorem Sorted.le_last {front : List Entry} {entry : Entry} (sorted : Sorted (front ++ [entry])) :
    ∀ other ∈ front ++ [entry], term other ≤ term entry := by
  intro other member
  rcases List.mem_append.mp member with inFront | isLast
  · exact (List.pairwise_append.mp sorted).2.2 other inFront entry (List.mem_singleton_self _)
  · rw [List.mem_singleton.mp isLast]

theorem Sorted.getElem?_le {log : List Entry} (sorted : Sorted log) {i j : ℕ}
    {earlier later : Entry} (found : log[i]? = some earlier) (found' : log[j]? = some later)
    (ordered : i ≤ j) : term earlier ≤ term later := by
  obtain ⟨inside, rfl⟩ := List.getElem?_eq_some_iff.mp found
  obtain ⟨inside', rfl⟩ := List.getElem?_eq_some_iff.mp found'
  rcases Nat.lt_or_eq_of_le ordered with before | rfl
  · exact List.pairwise_iff_getElem.mp sorted i j inside inside' before
  · exact le_rfl

/-- The term of the last entry, and `-1` on the empty log. -/
def lastTerm (log : List Entry) : ℤ :=
  match log.getLast? with
  | some entry => term entry
  | none => -1

@[simp] theorem lastTerm_nil : lastTerm ([] : List Entry) = -1 := rfl

@[simp] theorem lastTerm_concat (front : List Entry) (entry : Entry) :
    lastTerm (front ++ [entry]) = term entry := by
  simp [lastTerm]

theorem le_lastTerm {log : List Entry} (sorted : Sorted log) {entry : Entry}
    (member : entry ∈ log) : (term entry : ℤ) ≤ lastTerm log := by
  rcases List.eq_nil_or_concat' log with rfl | ⟨front, last, rfl⟩
  · cases member
  · rw [lastTerm_concat]
    exact Int.ofNat_le.mpr (sorted.le_last entry member)

theorem lastTerm_le {log : List Entry} {bound : ℕ} (below : ∀ entry ∈ log, term entry ≤ bound) :
    lastTerm log ≤ bound := by
  rcases List.eq_nil_or_concat' log with rfl | ⟨front, last, rfl⟩
  · rw [lastTerm_nil]
    omega
  · rw [lastTerm_concat]
    exact Int.ofNat_le.mpr (below last (by simp))

/-- The comparison of a vote: a later last term, or the same one and no shorter a log. -/
def UpToDate (candidate voter : List Entry) : Prop :=
  lastTerm voter < lastTerm candidate ∨
    lastTerm voter = lastTerm candidate ∧ voter.length ≤ candidate.length

/-- Two logs with the same term at one position agree up to it. -/
def Matching (first second : List Entry) : Prop :=
  ∀ index entry entry', first[index]? = some entry → second[index]? = some entry' →
    term entry = term entry' → first.take (index + 1) = second.take (index + 1)

theorem Matching.symm {first second : List Entry} (matching : Matching first second) :
    Matching second first :=
  fun index entry entry' found found' same =>
    (matching index entry' entry found' found same.symm).symm

/-! ### Rooted logs -/

/-- Each prefix of the log is a prefix of the reference log of the term it ends in. -/
def Rooted (reference : ℕ → List Entry) (log : List Entry) : Prop :=
  ∀ front entry, front ++ [entry] <+: log → front ++ [entry] <+: reference (term entry)

section Rooted

variable {reference reference' : ℕ → List Entry} {log : List Entry}

theorem rooted_nil : Rooted reference ([] : List Entry) := by
  intro front entry part
  exact absurd (List.prefix_nil.mp part) (by simp)

theorem Rooted.mono (rooted : Rooted reference log)
    (grows : ∀ time, reference time <+: reference' time) : Rooted reference' log :=
  fun front entry part => (rooted front entry part).trans (grows (term entry))

theorem Rooted.append {entry : Entry} (rooted : Rooted reference log)
    (owned : log ++ [entry] <+: reference (term entry)) : Rooted reference (log ++ [entry]) := by
  intro front last part
  rcases List.prefix_concat_iff.mp part with whole | inLog
  · obtain ⟨rfl, rfl⟩ : front = log ∧ last = entry := by simpa using whole
    exact owned
  · exact rooted front last inLog

/-- Log matching: two rooted logs with the same term at one position agree up to it. -/
theorem Rooted.matching {first second : List Entry} (rootedFirst : Rooted reference first)
    (rootedSecond : Rooted reference second) {index : ℕ} {entry entry' : Entry}
    (found : first[index]? = some entry) (found' : second[index]? = some entry')
    (same : term entry = term entry') : first.take (index + 1) = second.take (index + 1) := by
  have inFirst : first.take (index + 1) <+: reference (term entry) := by
    rw [take_succ_of_getElem? found]
    exact rootedFirst _ _ (take_succ_of_getElem? found ▸ List.take_prefix _ _)
  have inSecond : second.take (index + 1) <+: reference (term entry) := by
    rw [take_succ_of_getElem? found', same]
    exact rootedSecond _ _ (take_succ_of_getElem? found' ▸ List.take_prefix _ _)
  obtain ⟨longFirst, -⟩ := List.getElem?_eq_some_iff.mp found
  obtain ⟨longSecond, -⟩ := List.getElem?_eq_some_iff.mp found'
  have lengths : (first.take (index + 1)).length = (second.take (index + 1)).length := by
    simp only [List.length_take]
    omega
  exact (prefix_of_comparable_of_length_le inFirst inSecond lengths.le).eq_of_length lengths

theorem Rooted.matches {first second : List Entry} (rootedFirst : Rooted reference first)
    (rootedSecond : Rooted reference second) : Matching first second :=
  fun _ _ _ found found' same => rootedFirst.matching rootedSecond found found' same

end Rooted

/-! ### Merging a log that is sent -/

/-- A receiver that holds one log and is sent another keeps its own when it already extends
what is sent, and otherwise ends up with exactly what is sent. -/
def Adopts (held sent result : List Entry) : Prop :=
  sent <+: held ∧ result = held ∨ ¬ sent <+: held ∧ result = sent

section Adopts

omit [Stamped Entry]

variable {held sent result part : List Entry}

theorem Adopts.sent_part (adopts : Adopts held sent result) : sent <+: result := by
  rcases adopts with ⟨extends', rfl⟩ | ⟨-, rfl⟩
  · exact extends'
  · exact List.prefix_refl _

theorem Adopts.eq_or_eq (adopts : Adopts held sent result) : result = held ∨ result = sent :=
  adopts.imp And.right And.right

/-- A prefix of the held log that lies on one line with what is sent survives the merge. -/
theorem Adopts.keeps (adopts : Adopts held sent result) (inHeld : part <+: held)
    (comparable : part <+: sent ∨ sent <+: part) : part <+: result := by
  rcases adopts with ⟨-, rfl⟩ | ⟨diverges, rfl⟩
  · exact inHeld
  · rcases comparable with inSent | beyond
    · exact inSent
    · exact absurd (beyond.trans inHeld) diverges

end Adopts

/-! ### The comparison of a vote carries prefixes over -/

/-- A rooted log at least as up to date as one that holds a prefix holds it too, provided the
reference logs of the term the prefix ends in and of all later terms in the log hold it. -/
theorem UpToDate.carries {reference : ℕ → List Entry} {candidate voter front : List Entry}
    {entry : Entry} (upToDate : UpToDate candidate voter) (rooted : Rooted reference candidate)
    (sorted : Sorted voter) (inVoter : front ++ [entry] <+: voter)
    (inOwn : front ++ [entry] <+: reference (term entry))
    (inLater : ∀ other ∈ candidate, term entry < term other →
      front ++ [entry] <+: reference (term other)) : front ++ [entry] <+: candidate := by
  have atLeast : (term entry : ℤ) ≤ lastTerm voter :=
    le_lastTerm sorted (inVoter.subset (by simp))
  rcases List.eq_nil_or_concat' candidate with rfl | ⟨body, last, rfl⟩
  · rw [UpToDate, lastTerm_nil] at upToDate
    omega
  rw [UpToDate, lastTerm_concat] at upToDate
  have whole : body ++ [last] <+: reference (term last) := rooted _ _ (List.prefix_refl _)
  by_cases later : term entry < term last
  · rcases prefix_comparable (inLater last (by simp) later) whole with inside | outside
    · exact inside
    · -- The candidate would end inside the prefix, whose terms are at most its last one.
      have bound := (sorted.of_part inVoter).le_last last (outside.subset (by simp))
      omega
  · -- Both logs end in the term of the prefix, so the lengths decide.
    have same : term last = term entry := by omega
    rw [same] at whole
    refine prefix_of_comparable_of_length_le inOwn whole (inVoter.length_le.trans ?_)
    omega

end TermLog
