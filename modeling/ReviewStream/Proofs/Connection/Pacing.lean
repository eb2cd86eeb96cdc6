import ReviewStream.Proofs.Connection.Sessions

/-!
# Pauses between attempts to connect

The reader makes one attempt to connect after the other, with one pause between two of them. The
pause tells how the attempts before it came out: after a session it is the initial one, after a
failure that of the failures in a row. Their count stays at its limit and never starts again.
-/

namespace ReviewStream.Connection

/-- How an attempt to connect came out. -/
inductive Attempt where
  | session
  | failure
  deriving DecidableEq

def Step.attempt? : Step → Option Attempt
  | .opened => some .session
  | .failed => some .failure
  | _ => none

/-- The attempts that a run has made so far. -/
def attempts (xs : List Step) : List Attempt := xs.filterMap Step.attempt?

/-- How many of the latest attempts failed in a row. -/
def failuresInARow (as : List Attempt) : Nat := (as.reverse.takeWhile (· = .failure)).length

/-- The pause after the latest of some attempts: the initial one after a session, and that for the
failures before it after a failure. -/
def pauseAfter? (b : Backoff) (as : List Attempt) : Option Duration :=
  match failuresInARow as with
  | 0 => some b.initial
  | m + 1 => b.delay? (min m failureLimit)

def pacing (acts : List Act) : List Act :=
  acts.filter fun
    | .attempt | .pause _ => true
    | .up | .down | .post .. => false

/-- Attempts to connect with the given pauses between them. -/
def paced (pauses : List Duration) : List Act :=
  .attempt :: pauses.flatMap fun d => [.pause d, .attempt]

/-- What is still to come before the next attempt has been made. -/
def due (b : Backoff) (c : Connection) : List Act :=
  match c.phase with
  | .unstarted | .pausing _ => [.attempt]
  | .connecting | .gone => []
  | .reading | .posting _ => [.pause b.initial, .attempt]

variable {S : Setup} {c c' : Connection} {s : Step} {xs ys : List Step} {acts new : List Act}
  {as : List Attempt} {pauses : List Duration}

lemma attempts_append (xs ys : List Step) : attempts (xs ++ ys) = attempts xs ++ attempts ys :=
  List.filterMap_append

lemma failuresInARow_session (as : List Attempt) : failuresInARow (as ++ [.session]) = 0 := by
  simp [failuresInARow]

lemma failuresInARow_failure (as : List Attempt) :
    failuresInARow (as ++ [.failure]) = failuresInARow as + 1 := by
  simp [failuresInARow]

lemma pauseAfter?_of_failuresInARow {b : Backoff} (h : failuresInARow as = 0) :
    pauseAfter? b as = some b.initial := by
  rw [pauseAfter?, h]

lemma pauseAfter?_failure (b : Backoff) (as : List Attempt) :
    pauseAfter? b (as ++ [.failure]) = b.delay? (min (failuresInARow as) failureLimit) := by
  rw [pauseAfter?, failuresInARow_failure]

lemma toNat_countFailure (n : UInt32) :
    (countFailure n).toNat = min (n.toNat + 1) failureLimit := by
  have hlt := n.toNat_lt
  have hsize : UInt32.size = 4294967296 := rfl
  unfold countFailure failureLimit
  split
  · rename_i hn
    subst hn
    decide
  · rename_i hn
    have hne : n.toNat ≠ 4294967295 := fun h => hn (UInt32.toNat_inj.mp h)
    rw [UInt32.toNat_add]
    simp only [UInt32.toNat_one]
    omega

lemma pacing_append (a b : List Act) : pacing (a ++ b) = pacing a ++ pacing b :=
  List.filter_append ..

lemma paced_append_singleton (pauses : List Duration) (d : Duration) :
    paced (pauses ++ [d]) = paced pauses ++ [.pause d, .attempt] := by
  simp [paced]

lemma due_of_inSession (b : Backoff) (h : c.inSession = true) :
    due b c = [.pause b.initial, .attempt] := by
  rw [inSession] at h
  rw [due]
  split at h <;> simp_all

lemma due_congr (b : Backoff) (h : c'.phase = c.phase) : due b c' = due b c := by
  rw [due, due, h]

/-- There is one pause for each attempt, and it tells how the attempts up to this one came out. -/
structure Schedule (b : Backoff) (as : List Attempt) (pauses : List Duration) : Prop where
  length : pauses.length = as.length
  pause : ∀ n d, pauses[n]? = some d → pauseAfter? b (as.take (n + 1)) = some d

lemma Schedule.append {b : Backoff} (h : Schedule b as pauses) {a : Attempt} {d : Duration}
    (hd : pauseAfter? b (as ++ [a]) = some d) : Schedule b (as ++ [a]) (pauses ++ [d]) := by
  refine ⟨by simp [h.length], fun n e hn => ?_⟩
  rw [List.getElem?_append] at hn
  split at hn
  · rename_i hlt
    have hle : n + 1 ≤ as.length := h.length ▸ hlt
    rw [List.take_append_of_le_length hle]
    exact h.pause n e hn
  · rename_i hge
    obtain ⟨-, rfl⟩ : n - pauses.length = 0 ∧ d = e := by
      simpa only [List.getElem?_singleton, Option.ite_none_right_eq_some, Option.some.injEq]
        using hn
    have hall : (as ++ [a]).length ≤ n + 1 := by
      rw [List.length_append, List.length_singleton, ← h.length]
      omega
    rwa [List.take_of_length_le hall]

/-- How a reader that was not told to shut down keeps its attempts and pauses in step. -/
structure Paces (S : Setup) (xs : List Step) (c : Connection) (acts : List Act) : Prop where
  running : c.shutDown = false
  alive : c.phase ≠ .gone
  failures : c.failures.toNat = min (failuresInARow (attempts xs)) failureLimit
  session : c.inSession = true → failuresInARow (attempts xs) = 0
  pausing : ∀ d, c.phase = .pausing d → pauseAfter? S.backoff (attempts xs) = some d
  pauses : ∃ pauses, Schedule S.backoff (attempts xs) pauses ∧
    pacing acts ++ due S.backoff c = paced pauses

lemma paces_nil : Paces S [] {} [] where
  running := rfl
  alive := by simp
  failures := rfl
  session := by simp [inSession]
  pausing := by simp
  pauses := ⟨[], ⟨rfl, by simp⟩, rfl⟩

lemma Paces.along (h : Paces S xs c acts) (ha : s.attempt? = none)
    (hs : c'.shutDown = c.shutDown) (hf : c'.failures = c.failures) (hg : c'.phase ≠ .gone)
    (hin : c'.inSession = true → c.inSession = true)
    (hp : ∀ d, c'.phase = .pausing d →
      c.phase = .pausing d ∨ c.inSession = true ∧ d = S.backoff.initial)
    (hdue : pacing new ++ due S.backoff c' = due S.backoff c) :
    Paces S (xs ++ [s]) c' (acts ++ new) := by
  have hsame : attempts (xs ++ [s]) = attempts xs := by
    rw [attempts_append]
    simp [attempts, ha]
  obtain ⟨pauses, hsched, hpaced⟩ := h.pauses
  refine ⟨hs.trans h.running, hg, ?_, ?_, ?_, pauses, ?_, ?_⟩
  · rw [hsame, hf]
    exact h.failures
  · rw [hsame]
    exact fun hc => h.session (hin hc)
  · intro d hd
    rw [hsame]
    rcases hp d hd with hd | ⟨hc, rfl⟩
    · exact h.pausing d hd
    · exact pauseAfter?_of_failuresInARow (h.session hc)
  · rwa [hsame]
  · rw [pacing_append, List.append_assoc, hdue, hpaced]

lemma Paces.within (h : Paces S xs c acts) (ha : s.attempt? = none) (hin : c.inSession = true)
    (hs : c'.shutDown = c.shutDown) (hf : c'.failures = c.failures) (hin' : c'.inSession = true)
    (hnew : pacing new = []) : Paces S (xs ++ [s]) c' (acts ++ new) := by
  refine h.along ha hs hf ?_ (fun _ => hin) ?_ ?_
  · rintro hp
    simp [inSession, hp] at hin'
  · intro d hp
    simp [inSession, hp] at hin'
  · rw [hnew, due_of_inSession _ hin, due_of_inSession _ hin', List.nil_append]

lemma Paces.left (h : Paces S xs c acts) (ha : s.attempt? = none) (hin : c.inSession = true) :
    Paces S (xs ++ [s])
      { c with phase := .pausing S.backoff.initial, cut := false, connected := false }
      (acts ++ [.down, .pause S.backoff.initial]) := by
  refine h.along ha rfl rfl (by simp) (by simp [inSession]) ?_ ?_
  · rintro d ⟨⟩
    exact .inr ⟨hin, rfl⟩
  · rw [due_of_inSession _ hin]
    rfl

lemma Paces.settled (h : Paces S xs c acts) {a : Attempt} {d : Duration}
    (ha : s.attempt? = some a) (hp : c.phase = .connecting) (hs : c'.shutDown = c.shutDown)
    (hg : c'.phase ≠ .gone)
    (hf : c'.failures.toNat = min (failuresInARow (attempts xs ++ [a])) failureLimit)
    (hin : c'.inSession = true → a = .session) (hd : ∀ e, c'.phase = .pausing e → e = d)
    (hpause : pauseAfter? S.backoff (attempts xs ++ [a]) = some d)
    (hdue : pacing new ++ due S.backoff c' = [.pause d, .attempt]) :
    Paces S (xs ++ [s]) c' (acts ++ new) := by
  have hmore : attempts (xs ++ [s]) = attempts xs ++ [a] := by
    rw [attempts_append]
    simp [attempts, ha]
  obtain ⟨pauses, hsched, hpaced⟩ := h.pauses
  have hnone : due S.backoff c = [] := by rw [due, hp]
  refine ⟨hs.trans h.running, hg, hmore ▸ hf, ?_, ?_, pauses ++ [d], ?_, ?_⟩
  · intro hc
    rw [hmore, hin hc]
    exact failuresInARow_session _
  · intro e he
    rw [hmore, hd e he]
    exact hpause
  · rw [hmore]
    exact hsched.append hpause
  · rw [hnone, List.append_nil] at hpaced
    rw [pacing_append, List.append_assoc, hdue, hpaced, paced_append_singleton]

lemma Paces.move (hd : ∀ n ≤ failureLimit, (S.backoff.delay? n).isSome = true)
    (h : Paces S xs c acts) (hm : Move S c s c' new) (hs : s ≠ .shutdown) :
    Paces S (xs ++ [s]) c' (acts ++ new) := by
  cases hm with
  | shutdown => exact absurd rfl hs
  | closedForGood _ hs' | stopped _ hs' =>
    exact absurd (h.running.symm.trans hs') Bool.false_ne_true
  | reconnect =>
    have hphase := phase_reconnect c
    have hfail : c.reconnect.failures = c.failures := by
      unfold reconnect
      split <;> rfl
    refine h.along rfl (shutDown_reconnect c) hfail (hphase ▸ h.alive) ?_ ?_ (due_congr _ hphase)
    · exact fun hc => inSession_reconnect c ▸ hc
    · exact fun d hp => .inl (hphase ▸ hp)
  | opened hp =>
    refine h.settled rfl hp rfl (by simp) ?_ (fun _ => rfl) (by simp)
      (pauseAfter?_of_failuresInARow (failuresInARow_session _)) rfl
    rw [failuresInARow_session]
    rfl
  | failed hp _ d hdelay =>
    refine h.settled rfl hp rfl (by simp) ?_ (by simp [inSession]) ?_ ?_ rfl
    · rw [toNat_countFailure, h.failures, failuresInARow_failure]
      omega
    · rintro e ⟨⟩
      rfl
    · -- the pause is read off the count before this failure is added to it
      rw [pauseAfter?_failure, ← h.failures]
      exact hdelay
  | failedForGood _ _ hnone =>
    have hsome := hd c.failures.toNat (h.failures ▸ Nat.min_le_right ..)
    rw [hnone] at hsome
    cases hsome
  | startInVain => exact h.along rfl rfl rfl h.alive id (fun _ hp => .inl hp) rfl
  | passedOver => exact h.along rfl rfl rfl h.alive id (fun _ hp => .inl hp) rfl
  | start hp =>
    refine h.along rfl rfl rfl (by simp) (by simp [inSession]) (by simp) ?_
    rw [due, due, hp]
    rfl
  | received hp => exact h.within rfl (by simp [inSession, hp]) rfl rfl rfl rfl
  | posted _ hp => exact h.within rfl (by simp [inSession, hp]) rfl rfl rfl rfl
  | dropped _ hp => exact h.within rfl (by simp [inSession, hp]) rfl rfl rfl rfl
  | ended hp => exact h.left rfl (by simp [inSession, hp])
  | closed hin => exact h.left rfl hin
  | resumed d hp =>
    refine h.along rfl rfl rfl (by simp) (by simp [inSession]) (by simp) ?_
    rw [due, due, hp]
    rfl

lemma paces_of_run (hd : ∀ n ≤ failureLimit, (S.backoff.delay? n).isSome = true)
    (h : run? S {} xs = some (c, acts)) (hs : .shutdown ∉ xs) : Paces S xs c acts := by
  refine run_induction (P := fun xs c acts => .shutdown ∉ xs → Paces S xs c acts)
    (fun _ => paces_nil) ?_ h hs
  intro xs c₁ acts s c₂ new ih hm hs
  simp only [List.mem_append, List.mem_singleton, not_or] at hs
  exact (ih hs.1).move hd hm (Ne.symm hs.2)

lemma exists_connecting (S : Setup) (hs : c.shutDown = false) (hg : c.phase ≠ .gone) :
    ∃ ys c' new, run? S c ys = some (c', new) ∧ .shutdown ∉ ys ∧ attempts ys = [] ∧
      c'.phase = .connecting ∧ c'.shutDown = false := by
  have hcut : c.inSession = true → c.cut = true →
      ∃ ys c' new, run? S c ys = some (c', new) ∧ .shutdown ∉ ys ∧ attempts ys = [] ∧
        c'.phase = .connecting ∧ c'.shutDown = false := by
    intro hin hc
    exact ⟨[.closed, .resumed], { c with phase := .connecting, cut := false, connected := false },
      [.down, .pause S.backoff.initial, .attempt],
      by simp [run?, step?, isCut, closeSession, hin, hs, hc], by decide, rfl, rfl, hs⟩
  cases hp : c.phase with
  | unstarted =>
    exact ⟨[.start], { c with phase := .connecting }, [.attempt],
      by simp [run?, step?, Connection.start, hp, hs], by decide, rfl, rfl, hs⟩
  | connecting => exact ⟨[], c, [], rfl, List.not_mem_nil, rfl, hp, hs⟩
  | pausing d =>
    exact ⟨[.resumed], { c with phase := .connecting }, [.attempt],
      by simp [run?, step?, hp, hs], by decide, rfl, rfl, hs⟩
  | gone => exact absurd hp hg
  | reading =>
    cases hc : c.cut with
    | true => exact hcut (by simp [inSession, hp]) hc
    | false =>
      exact ⟨[.ended, .resumed], { c with phase := .connecting, cut := false, connected := false },
        [.down, .pause S.backoff.initial, .attempt],
        by simp [run?, step?, isCut, closeSession, hp, hs, hc], by decide, rfl, rfl, hs⟩
  | posting text =>
    cases hc : c.cut with
    | true => exact hcut (by simp [inSession, hp]) hc
    | false =>
      exact ⟨[.dropped, .ended, .resumed],
        { c with phase := .connecting, cut := false, connected := false },
        [.down, .pause S.backoff.initial, .attempt],
        by simp [run?, step?, isCut, closeSession, hp, hs, hc], by decide, rfl, rfl, hs⟩

lemma Paces.exists_settled (h : Paces S xs c acts) (a : Attempt) :
    ∃ ys c' new, run? S c ys = some (c', new) ∧ .shutdown ∉ ys ∧ attempts ys = [a] := by
  have hsettle : ∀ c₁ : Connection, c₁.phase = .connecting → c₁.shutDown = false →
      ∃ s c' new, c₁.step? S s = some (c', new) ∧ s ≠ .shutdown ∧ s.attempt? = some a := by
    intro c₁ hp hs₁
    cases a with
    | session => exact ⟨.opened, _, _, by simp [step?, hp, hs₁]; rfl, by simp, rfl⟩
    | failure => exact ⟨.failed, _, _, by simp [step?, hp, hs₁]; rfl, by simp, rfl⟩
  obtain ⟨ys, c₁, new, hrun, hys, hnone, hp, hs₁⟩ := exists_connecting S h.running h.alive
  obtain ⟨s, c', new', hstep, hne, hsome⟩ := hsettle c₁ hp hs₁
  refine ⟨ys ++ [s], c', new ++ new',
    run?_append_singleton_eq_some_iff.mpr ⟨c₁, new, new', hrun, hstep, rfl⟩, ?_, ?_⟩
  · simp [hys, Ne.symm hne]
  · rw [attempts_append, hnone]
    simp [attempts, hsome]

/-- Whatever comes of the attempts, the reader goes on with a pause and one attempt more until it is
shut down. The pause after a session is the initial one, and that after a failure is the pause for
the failures in a row before it, where more than the limit count as the limit. A shutdown, at
whatever moment, is followed by no attempt. -/
theorem pauses_between_attempts (hd : ∀ n ≤ failureLimit, (S.backoff.delay? n).isSome = true) :
    (∀ as, ∃ xs c acts, run? S {} xs = some (c, acts) ∧ .shutdown ∉ xs ∧ attempts xs = as) ∧
    ∀ xs c acts, run? S {} xs = some (c, acts) → .shutdown ∉ xs →
      (∃ pauses, pauses.length = (attempts xs).length ∧
        (∀ n d, pauses[n]? = some d →
          pauseAfter? S.backoff ((attempts xs).take (n + 1)) = some d) ∧
        pacing acts ++ due S.backoff c = paced pauses) ∧
      c.phase ≠ .gone ∧
      c.failures.toNat = min (failuresInARow (attempts xs)) failureLimit ∧
      (∀ d, c.phase = .pausing d → pauseAfter? S.backoff (attempts xs) = some d ∧
        ∃ c', c.step? S .resumed = some (c', [.attempt])) ∧
      ∀ ys c' acts', run? S c (.shutdown :: ys) = some (c', acts') → .attempt ∉ acts' := by
  constructor
  · intro as
    induction as using List.reverseRecOn with
    | nil => exact ⟨[], {}, [], rfl, List.not_mem_nil, rfl⟩
    | append_singleton as a ih =>
      obtain ⟨xs, c, acts, hrun, hs, rfl⟩ := ih
      obtain ⟨ys, c', new, hmore, hs', ha⟩ := (paces_of_run hd hrun hs).exists_settled a
      refine ⟨xs ++ ys, c', acts ++ new,
        run?_append_eq_some_iff.mpr ⟨c, acts, new, hrun, hmore, rfl⟩, ?_, ?_⟩
      · simp [hs, hs']
      · rw [attempts_append, ha]
  · intro xs c acts hrun hs
    have h := paces_of_run hd hrun hs
    obtain ⟨pauses, hsched, hpaced⟩ := h.pauses
    refine ⟨⟨pauses, hsched.length, hsched.pause, hpaced⟩, h.alive, h.failures, ?_, ?_⟩
    · intro d hp
      refine ⟨h.pausing d hp, { c with phase := .connecting }, ?_⟩
      simp [step?, hp, h.running]
    · intro ys c' acts' hrun' hmem
      obtain ⟨c₁, a, b, hstep, hrest, rfl⟩ := run?_cons_eq_some_iff.mp hrun'
      simp only [step?, Option.some.injEq, Prod.mk.injEq] at hstep
      obtain ⟨rfl, rfl⟩ := hstep
      exact ((quiet_of_shutDown rfl hrest).2 _ hmem).1 rfl

/-- Two failures lead to growing pauses and the session after them to the initial one again. -/
theorem pauses_start_again_after_session :
    let S : Setup := ⟨⟨"review", "localhost", 29418, "ssh", none⟩, .standard⟩
    let xs : List Step := [.start, .failed, .resumed, .failed, .resumed, .opened, .ended]
    let c : Connection := { phase := .pausing (.ofSeconds 2) }
    let acts : List Act := [.attempt, .pause (.ofSeconds 2), .attempt, .pause (.ofSeconds 4),
      .attempt, .up, .down, .pause (.ofSeconds 2)]
    (∀ n ≤ failureLimit, (S.backoff.delay? n).isSome = true) ∧ run? S {} xs = some (c, acts) ∧
      .shutdown ∉ xs ∧ attempts xs = [.failure, .failure, .session] ∧
      pauseAfter? S.backoff (attempts xs) = some (.ofSeconds 2) ∧
      (∃ pauses, pacing acts ++ [.attempt] = paced pauses) ∧
      ∀ ys c' acts', run? S c (.shutdown :: ys) = some (c', acts') → .attempt ∉ acts' := by
  intro S xs c acts
  have hd : ∀ n ≤ failureLimit, (S.backoff.delay? n).isSome = true :=
    fun n _ => Backoff.isSome_delay?_standard n
  have hrun : run? S {} xs = some (c, acts) := by decide +kernel
  have hs : .shutdown ∉ xs := by decide
  obtain ⟨⟨pauses, -, -, hpaced⟩, -, -, hpausing, hquiet⟩ :=
    (pauses_between_attempts hd).2 xs c acts hrun hs
  exact ⟨hd, hrun, hs, rfl, (hpausing _ rfl).1, ⟨pauses, hpaced⟩, hquiet⟩

end ReviewStream.Connection
