import ReviewStream.Proofs.Connection.Listeners

/-!
# Sessions of the connection

A run of the connection is a sequence of sessions. Listeners hear one up and one down for each of
them. Requests to reconnect all count, but only those made in a session cut it, and however many
these are the session ends once and is followed by one that is not cut. A shutdown leaves no attempt
to connect and no posted line after it.
-/

namespace ReviewStream.Connection

variable {S : Setup} {c c' : Connection} {s : Step} {xs ys : List Step} {acts new : List Act}

/-- So many ups and downs in turn, beginning with an up. -/
def alternating (n : Nat) : List Bool := (List.range n).map fun i => i % 2 = 0

lemma alternating_succ (n : Nat) : alternating (n + 1) = alternating n ++ [decide (n % 2 = 0)] := by
  simp [alternating, List.range_succ]

lemma getLast?_alternating (n : Nat) :
    (alternating n).getLast? = some true ↔ n % 2 = 1 := by
  cases n with
  | zero => simp [alternating]
  | succ n =>
    rw [alternating_succ, List.getLast?_concat, Option.some.injEq, decide_eq_true_iff]
    omega

/-- How many reconnects were requested since a session was opened last. -/
def requestsSinceOpened (xs : List Step) : Nat :=
  (xs.reverse.takeWhile (· ≠ .opened)).count .reconnect

lemma requestsSinceOpened_opened (xs : List Step) : requestsSinceOpened (xs ++ [.opened]) = 0 := by
  simp [requestsSinceOpened]

lemma requestsSinceOpened_reconnect (xs : List Step) :
    requestsSinceOpened (xs ++ [.reconnect]) = requestsSinceOpened xs + 1 := by
  simp [requestsSinceOpened]

lemma requestsSinceOpened_of_ne (xs : List Step) (h : s ≠ .opened) (h' : s ≠ .reconnect) :
    requestsSinceOpened (xs ++ [s]) = requestsSinceOpened xs := by
  simp [requestsSinceOpened, h, h']

/-- What the fields of the connection say about the run that led to it. -/
structure Tracks (xs : List Step) (c : Connection) : Prop where
  connected : c.connected = c.inSession
  cut : c.cut = (c.inSession && decide (0 < requestsSinceOpened xs))
  pending : c.inSession = true → c.pending = decide (0 < requestsSinceOpened xs)
  reconnects : c.reconnects = UInt64.ofNat (xs.count .reconnect)
  shutDown : c.shutDown = decide (.shutdown ∈ xs)

lemma tracks_nil : Tracks [] {} := by
  constructor <;> simp [inSession]

lemma cut_reconnect (h : c.cut = true) : c.reconnect.cut = true := by
  unfold reconnect
  split <;> simp [h]

lemma shutDown_reconnect (c : Connection) : c.reconnect.shutDown = c.shutDown := by
  unfold reconnect
  split <;> rfl

lemma inSession_reconnect (c : Connection) : c.reconnect.inSession = c.inSession :=
  inSession_congr (phase_reconnect c)

lemma inSession_breakOff (c : Connection) : c.breakOff.inSession = false := rfl

lemma Tracks.reconnect (h : Tracks xs c) : Tracks (xs ++ [.reconnect]) c.reconnect := by
  obtain ⟨hconn, hcut, hpend, hrec, hshut⟩ := h
  constructor
  · rw [inSession_reconnect, ← hconn]
    unfold Connection.reconnect
    split <;> rfl
  · rw [inSession_reconnect, requestsSinceOpened_reconnect]
    unfold Connection.reconnect
    cases hin : c.inSession with
    | false => split <;> simp [hcut, hin]
    | true =>
      -- a request that is pending in a session has cut it
      split
      · rename_i hp
        simpa [hcut, hin, hpend hin] using hp
      · simp [hcut]
  · rw [requestsSinceOpened_reconnect]
    unfold Connection.reconnect
    split
    · rename_i hp
      simp [hp]
    · simp
  · unfold Connection.reconnect
    split <;> simp [hrec, UInt64.ofNat_add]
  · unfold Connection.reconnect
    split <;> simp [hshut]

lemma inSession_of_stopped (hp : c.phase = .connecting ∨ ∃ d, c.phase = .pausing d) :
    c.inSession = false := by
  rcases hp with hp | ⟨d, hp⟩ <;> simp [inSession, hp]

lemma Tracks.move (h : Tracks xs c) (hm : Move S c s c' new) : Tracks (xs ++ [s]) c' := by
  cases hm with
  | reconnect => exact h.reconnect
  | shutdown =>
    obtain ⟨hconn, hcut, hpend, hrec, hshut⟩ := h
    constructor
    · cases hp : c.phase <;> simp [Connection.shutdown, inSession, hp, hconn]
    · simpa [Connection.shutdown, requestsSinceOpened_of_ne, inSession] using hcut
    · simpa [Connection.shutdown, requestsSinceOpened_of_ne, inSession] using hpend
    · simp [Connection.shutdown, hrec]
    · simp [Connection.shutdown]
  | opened hp hs =>
    obtain ⟨-, -, -, hrec, hshut⟩ := h
    constructor <;> simp [inSession, requestsSinceOpened_opened, hrec, hshut]
  | stopped hp hs =>
    obtain ⟨hconn, hcut, -, hrec, hshut⟩ := h
    rw [inSession_of_stopped hp] at hconn hcut
    constructor <;> simp [breakOff, inSession, hconn, hcut, hrec, hshut]
  | _ =>
    obtain ⟨hconn, hcut, hpend, hrec, hshut⟩ := h
    constructor <;> simp_all [inSession, requestsSinceOpened_of_ne, breakOff]

lemma tracks_of_run (h : run? S {} xs = some (c, acts)) : Tracks xs c :=
  run_induction (P := fun xs c _ => Tracks xs c) tracks_nil (fun _ _ _ _ _ _ ht hm => ht.move hm) h

lemma told_of_move (hm : Move S c s c' new) :
    told new = if c'.inSession = c.inSession then [] else [c'.inSession] := by
  cases hm with
  | reconnect => simp [inSession_reconnect]
  | shutdown => rw [inSession_congr (show c.shutdown.phase = c.phase from rfl)]; simp
  | ended hp hc => simp [told, Act.up?, inSession, hp]
  | closed hp hc => rw [hp]; rfl
  | closedForGood hp hs => rw [hp]; rfl
  | stopped hp hs => simp [inSession_of_stopped hp, inSession_breakOff]
  | _ => simp_all [told, Act.up?, inSession, breakOff]

/-- Ups and downs alternate, and the latest of them says whether a session is open. -/
lemma told_of_run (h : run? S {} xs = some (c, acts)) :
    told acts = alternating (told acts).length ∧
      c.inSession = decide ((told acts).length % 2 = 1) := by
  refine run_induction (P := fun _ c acts => told acts = alternating (told acts).length ∧
    c.inSession = decide ((told acts).length % 2 = 1)) (by simp [alternating, inSession]) ?_ h
  rintro xs c₁ acts s c₂ new ⟨htold, hin⟩ hm
  rw [told_append, told_of_move hm]
  by_cases he : c₂.inSession = c₁.inSession
  · rw [if_pos he, List.append_nil]
    exact ⟨htold, he.trans hin⟩
  · have hflip : c₂.inSession = decide ((told acts).length % 2 = 0) := by
      rw [Bool.eq_not_of_ne he, hin, ← decide_not]
      exact decide_eq_decide.mpr (by omega)
    rw [if_neg he, hflip, List.length_append, List.length_singleton, alternating_succ, ← htold]
    refine ⟨rfl, decide_eq_decide.mpr ?_⟩
    omega

lemma getLast?_told_of_run (h : run? S {} xs = some (c, acts)) :
    (told acts).getLast? = some true ↔ c.inSession = true := by
  obtain ⟨htold, hin⟩ := told_of_run h
  rw [htold, getLast?_alternating, hin, decide_eq_true_iff]

/-- A session that ends, and an attempt to connect after each pause. -/
def reopening (pauses : List Duration) : List Act :=
  .down :: pauses.flatMap fun d => [.pause d, .attempt]

lemma reopening_append_singleton (ds : List Duration) (d : Duration) :
    reopening (ds ++ [d]) = reopening ds ++ [.pause d, .attempt] := by
  simp [reopening]

/-- The largest number of failures that is counted. -/
def failureLimit : Nat := UInt32.size - 1

/-- What the reader still has to do before its next attempt to connect, from a session that is cut
on. -/
inductive Ahead (S : Setup) (c : Connection) : List Act → Prop where
  | cut : c.inSession = true → c.cut = true →
      Ahead S c [.down, .pause S.backoff.initial, .attempt]
  | pausing (d : Duration) : c.phase = .pausing d → Ahead S c [.attempt]
  | connecting : c.phase = .connecting → Ahead S c []

/-- The connection closes one session and makes one attempt to connect after it, and one more for
each failure. The reader may give up after a failure that has no pause. -/
def Reopens (S : Setup) (failures : Nat) (c : Connection) (acts : List Act) : Prop :=
  ∃ ds, (ds.length = failures ∧
      ∃ ahead, Ahead S c ahead ∧ acts ++ ahead = reopening (S.backoff.initial :: ds)) ∨
    (ds.length + 1 = failures ∧ c.phase = .gone ∧
      (∃ n ≤ failureLimit, S.backoff.delay? n = none) ∧
      acts = reopening (S.backoff.initial :: ds))

lemma Ahead.congr {ahead : List Act} (h : Ahead S c ahead) (hp : c'.phase = c.phase)
    (hc : c.cut = true → c'.cut = true) : Ahead S c' ahead := by
  cases h with
  | cut hin hcut => exact .cut ((inSession_congr hp).trans hin) (hc hcut)
  | pausing d hd => exact .pausing d (hp.trans hd)
  | connecting hd => exact .connecting (hp.trans hd)

lemma Ahead.move {ahead : List Act} (h : Ahead S c ahead) (hs : c.shutDown = false)
    (hm : Move S c s c' new) (ho : s ≠ .opened) (hd : s ≠ .shutdown) :
    (s ≠ .failed ∧ ∃ ahead', Ahead S c' ahead' ∧ new ++ ahead' = ahead) ∨
      (s = .failed ∧ ahead = [] ∧ ((∃ d, Ahead S c' [.attempt] ∧ new = [.pause d]) ∨
        (c'.phase = .gone ∧ (∃ n ≤ failureLimit, S.backoff.delay? n = none) ∧ new = []))) := by
  cases hm with
  | startInVain => exact .inl ⟨nofun, ahead, h, rfl⟩
  | reconnect => exact .inl ⟨nofun, ahead, h.congr (phase_reconnect c) cut_reconnect, rfl⟩
  | shutdown => exact absurd rfl hd
  | opened => exact absurd rfl ho
  | failed hp _ d hdelay =>
    have hahead : ahead = [] := by cases h <;> simp_all [inSession]
    exact .inr ⟨rfl, hahead, .inl ⟨d, .pausing d rfl, rfl⟩⟩
  | failedForGood hp _ hdelay =>
    have hahead : ahead = [] := by cases h <;> simp_all [inSession]
    have hcount : c.failures.toNat ≤ failureLimit := Nat.le_pred_of_lt c.failures.toNat_lt_size
    exact .inr ⟨rfl, hahead, .inr ⟨rfl, ⟨_, hcount, hdelay⟩, rfl⟩⟩
  | closed hin hc =>
    have hahead : ahead = [.down, .pause S.backoff.initial, .attempt] := by
      cases h <;> simp_all [inSession]
    exact .inl ⟨nofun, [.attempt], .pausing S.backoff.initial rfl, hahead.symm⟩
  | resumed d hp =>
    have hahead : ahead = [.attempt] := by cases h <;> simp_all [inSession]
    exact .inl ⟨nofun, [], .connecting rfl, hahead.symm⟩
  | stopped _ hs' => exact absurd (hs.symm.trans hs') Bool.false_ne_true
  -- the other steps need a session that is not cut, or a reader that was not started
  | _ => cases h <;> simp_all [inSession, isCut]

lemma shutDown_of_move (hm : Move S c s c' new) (hd : s ≠ .shutdown) :
    c'.shutDown = c.shutDown := by
  cases hm with
  | shutdown => exact absurd rfl hd
  | reconnect => exact shutDown_reconnect c
  | _ => rfl

lemma Move.of_gone (hm : Move S c s c' new) (hp : c.phase = .gone) :
    s ≠ .failed ∧ c'.phase = .gone ∧ new = [] := by
  cases hm with
  | reconnect => exact ⟨nofun, (phase_reconnect c).trans hp, rfl⟩
  | shutdown => exact ⟨nofun, hp, rfl⟩
  | _ => simp_all [inSession]

lemma quiet_of_gone (hp : c.phase = .gone) (h : run? S c ys = some (c', acts)) :
    c'.phase = .gone ∧ acts = [] := by
  refine run_induction (P := fun _ c' acts => c'.phase = .gone ∧ acts = []) ⟨hp, rfl⟩ ?_ h
  rintro xs c₁ acts s c₂ new ⟨hp₁, rfl⟩ hm
  obtain ⟨-, hp₂, rfl⟩ := hm.of_gone hp₁
  exact ⟨hp₂, rfl⟩

lemma Reopens.move {n : Nat} (h : Reopens S n c acts) (hs : c.shutDown = false)
    (hm : Move S c s c' new) (ho : s ≠ .opened) (hd : s ≠ .shutdown) :
    Reopens S (n + [s].count .failed) c' (acts ++ new) := by
  obtain ⟨ds, ⟨rfl, ahead, ha, hacts⟩ | ⟨rfl, hgone, hdelay, rfl⟩⟩ := h
  · rcases ha.move hs hm ho hd with ⟨hf, ahead', ha', rfl⟩ | ⟨rfl, rfl, hnext⟩
    · exact ⟨ds, .inl ⟨by simp [hf], ahead', ha', by rw [List.append_assoc, hacts]⟩⟩
    · rw [List.append_nil] at hacts
      rcases hnext with ⟨d, ha', rfl⟩ | ⟨hgone, hdelay, rfl⟩
      · refine ⟨ds ++ [d], .inl ⟨by simp, [.attempt], ha', ?_⟩⟩
        rw [← List.cons_append, reopening_append_singleton, hacts, List.append_assoc]
        rfl
      · exact ⟨ds, .inr ⟨by simp, hgone, hdelay, by rw [List.append_nil, hacts]⟩⟩
  · obtain ⟨hf, hgone', rfl⟩ := hm.of_gone hgone
    exact ⟨ds, .inr ⟨by simp [hf], hgone', hdelay, List.append_nil _⟩⟩

/-- A session that is cut is closed and followed by attempts to connect, however often the
connection is told to reconnect meanwhile. -/
lemma reopens_of_run (hin : c.inSession = true) (hcut : c.cut = true) (hs : c.shutDown = false)
    (h : run? S c ys = some (c', acts)) (ho : .opened ∉ ys) (hd : .shutdown ∉ ys) :
    Reopens S (ys.count .failed) c' acts ∧ c'.shutDown = false := by
  refine run_induction (P := fun ys c' acts => .opened ∉ ys → .shutdown ∉ ys →
    Reopens S (ys.count .failed) c' acts ∧ c'.shutDown = false) ?_ ?_ h ho hd
  · intro _ _
    exact ⟨⟨[], .inl ⟨rfl, _, .cut hin hcut, rfl⟩⟩, hs⟩
  · intro ys c₁ acts s c₂ new ih hm ho hd
    simp only [List.mem_append, List.mem_singleton, not_or] at ho hd
    obtain ⟨hr, hs₁⟩ := ih ho.1 hd.1
    rw [List.count_append]
    exact ⟨hr.move hs₁ hm (Ne.symm ho.2) (Ne.symm hd.2),
      (shutDown_of_move hm (Ne.symm hd.2)).trans hs₁⟩

lemma Ahead.exists_run {ahead : List Act} (h : Ahead S c ahead) (hs : c.shutDown = false) :
    ∃ zs, zs <:+ [.closed, .resumed, .opened] ∧
      run? S c zs = some (c.openSession.1, ahead ++ [.up]) := by
  cases h with
  | cut hin hcut =>
    exact ⟨[.closed, .resumed, .opened], List.suffix_rfl,
      by simp [run?, step?, hin, hs, hcut, isCut, closeSession, openSession]⟩
  | pausing d hp =>
    exact ⟨[.resumed, .opened], ⟨[.closed], rfl⟩, by simp [run?, step?, hp, hs, openSession]⟩
  | connecting hp =>
    exact ⟨[.opened], ⟨[.closed, .resumed], rfl⟩, by simp [run?, step?, hp, hs, openSession]⟩

lemma quiet_of_shutDown (hs : c.shutDown = true) (h : run? S c ys = some (c', acts)) :
    c'.shutDown = true ∧ ∀ a ∈ acts, a ≠ .attempt ∧ ∀ line provider, a ≠ .post line provider := by
  refine run_induction (P := fun _ c' acts => c'.shutDown = true ∧
    ∀ a ∈ acts, a ≠ .attempt ∧ ∀ line provider, a ≠ .post line provider) ⟨hs, nofun⟩ ?_ h
  rintro xs c₁ acts s c₂ new ⟨hs₁, hq⟩ hm
  have hnew : c₂.shutDown = true ∧
      ∀ a ∈ new, a ≠ .attempt ∧ ∀ line provider, a ≠ .post line provider := by
    cases hm with
    | reconnect => exact ⟨(shutDown_reconnect c₁).trans hs₁, nofun⟩
    | shutdown => exact ⟨rfl, nofun⟩
    | _ => simp_all [isCut, breakOff]
  refine ⟨hnew.1, fun a ha => ?_⟩
  rcases List.mem_append.mp ha with ha | ha
  · exact hq a ha
  · exact hnew.2 a ha

lemma Backoff.delay?_min (b : Backoff) (n : Nat) : b.delay? (min n exponentLimit) = b.delay? n := by
  simp [delay?, delay]

lemma Backoff.isSome_delay?_standard (n : Nat) : (standard.delay? n).isSome = true := by
  have hsmall : ∀ m < exponentLimit + 1, (standard.delay? m).isSome = true := by
    decide +kernel
  rw [← delay?_min]
  exact hsmall _ (Nat.lt_succ_of_le (Nat.min_le_right ..))

/-- Every listener that is there from the start hears ups and downs in turn. The connection is
connected from an up to the next down, and counts all requests to reconnect. The reader finds its
session cut if there was such a request in it or a shutdown, and not by requests from before. A
session that was cut ends with one down and posts nothing more. If no failure is without a pause, it
is followed by one attempt to connect and one more for each that fails, up to the next session,
which is not cut. After a shutdown there is neither an attempt nor a posted line. -/
theorem sessions_of_run (h : run? S {} xs = some (c, acts)) :
    (told acts = alternating (told acts).length ∧
      ∀ (T : Stage) (r : Rehearsal) (id : String) (hs : List Rehearsal.Happening),
        T.setup = S → r.connection = {} → r.seen = [] → r.Attends id → (∀ x ∈ hs, x.Leaves id) →
        hs.filterMap Rehearsal.Happening.step? = xs →
        Rehearsal.heard id (hs.foldl (Rehearsal.happen T) r).seen = told acts) ∧
    (c.status.connected = true ↔ (told acts).getLast? = some true) ∧
    c.status.reconnectCount = xs.count .reconnect % UInt64.size ∧
    ((c.step? S .closed).isSome = true ↔
      c.inSession = true ∧ (0 < requestsSinceOpened xs ∨ .shutdown ∈ xs)) ∧
    (∀ ys c' acts', c.inSession = true → 0 < requestsSinceOpened xs → .shutdown ∉ xs ++ ys →
      .opened ∉ ys → run? S c ys = some (c', acts') →
      ∃ ds, acts' <+: reopening (S.backoff.initial :: ds) ∧
        ((∀ n ≤ failureLimit, (S.backoff.delay? n).isSome = true) →
          ds.length = ys.count .failed ∧
          ∃ zs c'' acts'', zs <:+ [.closed, .resumed, .opened] ∧
            run? S c' zs = some (c'', acts'') ∧
            acts' ++ acts'' = reopening (S.backoff.initial :: ds) ++ [.up] ∧
            c''.inSession = true ∧ c''.isCut = false)) ∧
    (∀ ys c' acts', .shutdown ∈ xs → run? S c ys = some (c', acts') →
      ∀ a ∈ acts', a ≠ .attempt ∧ ∀ line provider, a ≠ .post line provider) := by
  have ht := tracks_of_run h
  have hlast := getLast?_told_of_run h
  refine ⟨⟨(told_of_run h).1, ?_⟩, ?_, ?_, ?_, ?_, ?_⟩
  · rintro T r id hs rfl hr hseen ha hleaves rfl
    rw [← hr] at h
    have hheard := (Rehearsal.heard_of_run ha hleaves h).2
    rwa [hseen] at hheard
  · rw [hlast, ← ht.connected]
    rfl
  · rw [status, ht.reconnects]
    simp [UInt64.toNat_ofNat']
  · have hclosed : (c.step? S .closed).isSome = true ↔ c.inSession = true ∧ c.isCut = true := by
      rw [step?]
      split <;> simp_all
    rw [hclosed, isCut, ht.cut, ht.shutDown]
    cases c.inSession <;> simp
  · intro ys c' acts' hin hreq hshut ho hrun
    simp only [List.mem_append, not_or] at hshut
    have hcut : c.cut = true := by simp [ht.cut, hin, hreq]
    have hs : c.shutDown = false := by simp [ht.shutDown, hshut.1]
    obtain ⟨⟨ds, ⟨hlen, ahead, hahead, hacts⟩ | ⟨-, -, ⟨n, hn, hnone⟩, hacts⟩⟩, hs'⟩ :=
      reopens_of_run hin hcut hs hrun ho hshut.2
    · refine ⟨ds, ⟨ahead, hacts⟩, fun _ => ?_⟩
      obtain ⟨zs, hzs, hrun'⟩ := hahead.exists_run hs'
      refine ⟨hlen, zs, _, _, hzs, hrun', ?_, rfl, hs'⟩
      rw [← List.append_assoc, hacts]
    · refine ⟨ds, hacts ▸ List.prefix_rfl, fun hd => ?_⟩
      have hsome := hd n hn
      rw [hnone] at hsome
      cases hsome
  · intro ys c' acts' hshut hrun
    exact (quiet_of_shutDown (by simp [ht.shutDown, hshut]) hrun).2

/-- Requests from before the first session and from between the two do not cut the second one, while
three in it lead to a single end and a single attempt. -/
theorem requests_in_second_session_reopen_once :
    let S : Setup := ⟨⟨"review", "localhost", 29418, "ssh", none⟩, .standard⟩
    let xs : List Step := [.start, .reconnect, .opened, .ended, .reconnect, .resumed, .opened]
    let c : Connection := { phase := .reading, connected := true, reconnects := 2 }
    let c' : Connection := { c with cut := true, pending := true, reconnects := 5 }
    let ys : List Step := xs ++ [.reconnect, .reconnect, .reconnect]
    (∀ n ≤ failureLimit, (S.backoff.delay? n).isSome = true) ∧
      (c.step? S .closed).isSome = false ∧ (c'.step? S .closed).isSome = true ∧
      c'.status.connected = true ∧ c'.status.reconnectCount = 5 ∧
      ∃ acts, run? S {} ys = some (c', acts) ∧ told acts = [true, false, true] ∧
        ∃ zs c'', run? S c' zs = some (c'', [.down, .pause (.ofSeconds 2), .attempt, .up]) ∧
          c''.isCut = false := by
  intro S xs c c' ys
  have hd : ∀ n ≤ failureLimit, (S.backoff.delay? n).isSome = true :=
    fun n _ => Backoff.isSome_delay?_standard n
  have hxs :
      run? S {} xs = some (c, [.attempt, .up, .down, .pause (.ofSeconds 2), .attempt, .up]) :=
    rfl
  have hys : run? S {} ys =
      some (c', [.attempt, .up, .down, .pause (.ofSeconds 2), .attempt, .up]) := rfl
  obtain ⟨-, -, -, hopen, -, -⟩ := sessions_of_run hxs
  obtain ⟨⟨htold, -⟩, hup, hcount, hclosed, hreopens, -⟩ := sessions_of_run hys
  have huncut : ¬ (c.step? S .closed).isSome = true := fun h => by
    obtain ⟨-, hreq | hshut⟩ := hopen.mp h
    · exact absurd hreq (by decide)
    · exact absurd hshut (by decide)
  obtain ⟨ds, -, hnext⟩ := hreopens [] c' [] rfl (by decide) (by decide) (by decide) rfl
  obtain ⟨hlen, zs, c'', acts, -, hrun, hacts, -, hcut⟩ := hnext hd
  rw [List.length_eq_zero_iff.mp hlen] at hacts
  have hacts : acts = [.down, .pause (.ofSeconds 2), .attempt, .up] := hacts
  exact ⟨hd, by simpa using huncut, hclosed.mpr ⟨rfl, .inl (by decide)⟩, hup.mpr rfl, hcount, _,
    hys, htold, zs, c'', hacts ▸ hrun, hcut⟩

/-- With a negative factor the second failure in a row has no pause, and the session that was cut by
a request is the last one. -/
theorem no_session_after_negative_pause :
    let S : Setup :=
      ⟨⟨"review", "localhost", 29418, "ssh", none⟩, ⟨.ofSeconds 2, .ofSeconds 60, -2.0⟩⟩
    let xs : List Step := [.start, .opened, .reconnect]
    let ys : List Step := [.closed, .resumed, .failed, .resumed, .failed]
    ∃ c acts c' acts', run? S {} xs = some (c, acts) ∧ c.inSession = true ∧
      0 < requestsSinceOpened xs ∧ .shutdown ∉ xs ++ ys ∧ run? S c ys = some (c', acts') ∧
      ∀ zs c'' acts'', run? S c' zs = some (c'', acts'') → c''.inSession = false ∧ acts'' = [] := by
  intro S xs ys
  let c : Connection :=
    { phase := .reading, cut := true, pending := true, connected := true, reconnects := 1 }
  let c' : Connection := { phase := .gone, failures := 1, pending := true, reconnects := 1 }
  have hxs : run? S {} xs = some (c, [.attempt, .up]) := rfl
  have hys : run? S c ys = some (c', [.down, .pause (.ofSeconds 2), .attempt,
      .pause (.ofSeconds 2), .attempt]) := by
    decide +kernel
  refine ⟨c, _, c', _, hxs, rfl, by decide, by decide, hys, fun zs c'' acts'' hrun => ?_⟩
  obtain ⟨hgone, rfl⟩ := quiet_of_gone rfl hrun
  exact ⟨by rw [inSession, hgone], rfl⟩

end ReviewStream.Connection
