import StateReplica.Proofs.Session.Course

/-!
Who is told of what, and when. A load that succeeds and a notice that counts are told to everybody
who is registered then, once and in order. Those who are called may look at the replica, which has
changed by then, and may come and go, which makes a difference from the next round on. Nobody is
told of anything else. Whatever those do who are called, the operation gives the same answer and
makes the same change.
-/

namespace StateReplica.Session

open Replica (Step)

variable {ω κ : Type}

/-- An answer that counts comes of a change, with one round of calls after it. -/
theorem Effect.round {company : Company ω κ} {s : Scene ω κ} {operation : Operation κ}
    {result : Answer × Scene ω κ} (effect : Effect company s operation result)
    (counts : result.1.counts = true) :
    ∃ step mid before told, company.step? s operation = some step ∧
      result = (.outcome (s.replica.outcome step), (company.surroundings.notify.run mid).2) ∧
      Committed s step mid before ∧
      Round s.replica.listeners.round mid (company.surroundings.notify.run mid).1 result.2 told := by
  cases effect with
  | @change step mid before told taken counts committed round =>
    exact ⟨step, mid, before, told, taken, rfl, committed, round⟩
  | idle idle => exact absurd counts (Bool.eq_false_iff.mp idle)

end StateReplica.Session
