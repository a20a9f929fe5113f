import RequestHedging.Exchange
import RequestHedging.Proofs.Traffic

/-!
# An exchange is traffic

An exchange polls everything whenever something happens; traffic polls what it likes, when
it likes.  So whatever happens to an exchange is one way for its requests to go, and what
is observed of it is what is observed of them (`exists_traffic`): what holds of all traffic
holds of the exchange.
-/

namespace RequestHedging

open Race Traffic

variable {In Out : Type}

namespace Traffic

/-- The request of an identity is at a stage; identities are listed in the order of arrival. -/
def Has (t : Traffic In Out) (ids : List Nat) (id : Nat) (stage : Journey.Stage In Out) : Prop :=
  ∃ (i : Nat) (j : Journey In Out), ids[i]? = some id ∧ t.journeys[i]? = some j ∧ j.stage = stage

section Touch

variable {svc : Service In Out} {t : Traffic In Out} {ids : List Nat} {i k id id' : Nat}
  {j : Journey In Out} {deed : Deed} {stage stage' : Journey.Stage In Out}

theorem index_unique (hdistinct : ids.Nodup) (hi : ids[i]? = some id) (hk : ids[k]? = some id) :
    i = k :=
  (List.getElem?_inj (List.getElem?_eq_some_iff.mp hi).1 hdistinct).mp (hi.trans hk.symm)

/-- A request is at one stage. -/
theorem Has.unique (hdistinct : ids.Nodup) (h : t.Has ids id stage) (h' : t.Has ids id stage') :
    stage = stage' := by
  obtain ⟨i, j, hi, hj, rfl⟩ := h
  obtain ⟨k, j', hk, hj', rfl⟩ := h'
  obtain rfl := index_unique hdistinct hi hk
  cases hj.symm.trans hj'
  rfl

theorem touch_eq (svc : Service In Out) (hj : t.journeys[i]? = some j) (deed : Deed) :
    t.touch svc i deed =
      { t with
        estimators := (j.shows svc t.estimators deed).2
        journeys := t.journeys.set i (j.step svc (deed.act t.estimators))
        trace := t.trace ++ mark t.now i (j.shows svc t.estimators deed).1 } := by
  simp only [touch, hj]

/-- What is done about another request makes no difference. -/
theorem Has.touch_of_ne (h : t.Has ids id' stage) (hi : ids[i]? = some id) (hne : id' ≠ id)
    (deed : Deed) : (t.touch svc i deed).Has ids id' stage := by
  obtain ⟨k, j, hk, hj, hstage⟩ := h
  have hik : i ≠ k := by
    rintro rfl
    exact hne (Option.some.inj (hk.symm.trans hi))
  refine ⟨k, j, hk, ?_, hstage⟩
  unfold touch
  split
  · exact hj
  · exact (List.getElem?_set_ne hik).trans hj

theorem has_touch_self (hi : ids[i]? = some id) (hj : t.journeys[i]? = some j) (deed : Deed) :
    (t.touch svc i deed).Has ids id (j.step svc (deed.act t.estimators)).stage := by
  refine ⟨i, _, hi, ?_, rfl⟩
  rw [touch_eq svc hj]
  exact List.getElem?_set_self (List.getElem?_eq_some_iff.mp hj).1

end Touch

end Traffic

theorem Journey.moment_act (svc : Service In Out) (es : Estimators) (j : Journey In Out)
    {deed : Deed} (hdeed : ∀ calls, deed ≠ .complete calls) :
    (j.step svc (deed.act es)).moment = j.moment := by
  cases deed with
  | complete calls => exact absurd rfl (hdeed calls)
  | poll =>
    simp only [Deed.act, step, poll]
    split
    · exact moment_conclude _ _
    · rfl
  | drop =>
    simp only [Deed.act, step, drop]
    split <;> rfl
  | drive =>
    simp only [Deed.act, step, drive]
    split <;> rfl

def Happening.starts? : Happening In → Option Nat
  | start id _ => some id
  | _ => none

namespace Exchange

/-- Traffic in which the requests of an exchange are on their journeys. -/
structure Mirrors (svc : Service In Out) (ids : List Nat) (x : Exchange In Out)
    (t : Traffic In Out) : Prop where
  service_eq : x.service = svc
  now_eq : t.now = x.now
  estimators_eq : t.estimators = x.estimators
  length_eq : t.journeys.length = ids.length
  moment_eq : ∀ (i id : Nat) (j : Journey In Out), ids[i]? = some id →
    t.journeys[i]? = some j → j.moment = x.moment id
  sessions : ∀ e ∈ x.sessions, t.Has ids e.1 (.held e.2)
  tasks : ∀ e ∈ x.tasks, t.Has ids e.1 (.straggling e.2)
  /-- Identities are told apart. -/
  distinct : ids.Nodup
  sessions_distinct : (x.sessions.map Prod.fst).Nodup
  tasks_distinct : (x.tasks.map Prod.fst).Nodup

/-- A trace names requests by their places; what was seen names them by identity. -/
def Names (ids : List Nat) (trace seen : List (Instant × Nat × Entry In Out)) : Prop :=
  (trace.map fun e => (e.1, ids[e.2.1]?, e.2.2)) = seen.map fun e => (e.1, some e.2.1, e.2.2)

structure Adds (ids : List Nat) (t t' : Traffic In Out) (entries : List (Nat × Entry In Out)) :
    Prop where
  now_eq : t'.now = t.now
  trace : ∃ new, t'.trace = t.trace ++ new ∧ Names ids new (entries.map fun e => (t.now, e))

theorem Names.append {ids : List Nat}
    {trace trace' seen seen' : List (Instant × Nat × Entry In Out)}
    (h : Names ids trace seen) (h' : Names ids trace' seen') :
    Names ids (trace ++ trace') (seen ++ seen') := by
  rw [Names, List.map_append, List.map_append, h, h']

/-- Identities stay where they are listed. -/
theorem Names.of_prefix_ids {ids ids' : List Nat} (hids : ids <+: ids')
    {trace seen : List (Instant × Nat × Entry In Out)} (h : Names ids trace seen) :
    Names ids' trace seen := by
  refine Eq.trans (List.map_congr_left ?_) h
  intro e he
  have hmem : (e.1, ids[e.2.1]?, e.2.2) ∈ seen.map fun e => (e.1, some e.2.1, e.2.2) :=
    h ▸ List.mem_map_of_mem he
  obtain ⟨e', -, heq⟩ := List.mem_map.mp hmem
  obtain ⟨rest, rfl⟩ := hids
  have hlisted : ids[e.2.1]? = some e'.2.1 := (congrArg (fun x => x.2.1) heq).symm
  rw [List.getElem?_append_left (List.getElem?_eq_some_iff.mp hlisted).1]

/-- One thing less among things of different identities. -/
theorem distinct_of_middle {α : Type} {id : Nat} {thing : α} {before after : List (Nat × α)}
    (h : ((before ++ (id, thing) :: after).map Prod.fst).Nodup) :
    ((before ++ after).map Prod.fst).Nodup ∧
      ∀ e ∈ before ++ after, e ∈ before ++ (id, thing) :: after ∧ e.1 ≠ id := by
  rw [List.map_append, List.map_cons, List.nodup_middle, ← List.map_append] at h
  obtain ⟨hid, hrest⟩ := List.nodup_cons.mp h
  refine ⟨hrest, fun e he => ⟨?_, ?_⟩⟩
  · rcases List.mem_append.mp he with he | he
    · exact List.mem_append_left _ he
    · exact List.mem_append_right _ (List.mem_cons_of_mem _ he)
  · intro heq
    have hmem : e.1 ∈ (before ++ after).map Prod.fst := List.mem_map_of_mem he
    exact hid (heq ▸ hmem)

theorem mem_middle {α : Type} {e e' : α} {before after : List α}
    (h : e ∈ before ++ [e'] ++ after) : e ∈ before ++ after ∨ e = e' := by
  rw [List.mem_append, List.mem_append, List.mem_singleton] at h
  rcases h with (h | h) | h
  · exact .inl (List.mem_append_left _ h)
  · exact .inr h
  · exact .inl (List.mem_append_right _ h)

section Touch

variable {svc : Service In Out} {ids : List Nat} {x : Exchange In Out} {t : Traffic In Out}
  {i id : Nat} {j : Journey In Out}

/-- Nobody holds a session whose task is left. -/
theorem Mirrors.ne_of_mem (h : Mirrors svc ids x t) {e : Nat × Session In Out}
    {e' : Nat × Task In Out} (he : e ∈ x.sessions) (he' : e' ∈ x.tasks) : e.1 ≠ e'.1 := by
  intro heq
  have hheld := h.sessions e he
  rw [heq] at hheld
  cases Has.unique h.distinct hheld (h.tasks e' he')

/-- What is done about one request leaves the others as they are. -/
theorem Mirrors.touch (sessions : List (Nat × Session In Out)) (tasks : List (Nat × Task In Out))
    (h : Mirrors svc ids x t) (hi : ids[i]? = some id) (hj : t.journeys[i]? = some j)
    {deed : Deed} (hdeed : ∀ calls, deed ≠ .complete calls)
    (hsessions : ∀ e ∈ sessions, e ∈ x.sessions ∧ e.1 ≠ id ∨
      e.1 = id ∧ (j.step svc (deed.act t.estimators)).stage = .held e.2)
    (htasks : ∀ e ∈ tasks, e ∈ x.tasks ∧ e.1 ≠ id ∨
      e.1 = id ∧ (j.step svc (deed.act t.estimators)).stage = .straggling e.2)
    (hdistinct : (sessions.map Prod.fst).Nodup) (hdistinct' : (tasks.map Prod.fst).Nodup) :
    Mirrors svc ids
      { x with
        estimators := (j.shows svc t.estimators deed).2, sessions := sessions, tasks := tasks }
      (t.touch svc i deed) where
  service_eq := h.service_eq
  now_eq := by
    rw [touch_eq svc hj]
    exact h.now_eq
  estimators_eq := by rw [touch_eq svc hj]
  length_eq := by
    rw [touch_eq svc hj]
    exact List.length_set.trans h.length_eq
  moment_eq := by
    intro k id' j' hk hj'
    rw [touch_eq svc hj] at hj'
    by_cases hki : k = i
    · subst hki
      rw [List.getElem?_set_self (List.getElem?_eq_some_iff.mp hj).1] at hj'
      cases hj'
      exact (Journey.moment_act svc t.estimators j hdeed).trans (h.moment_eq k id' j hk hj)
    · rw [List.getElem?_set_ne (Ne.symm hki)] at hj'
      exact h.moment_eq k id' j' hk hj'
  sessions := by
    intro e he
    rcases hsessions e he with ⟨hmem, hne⟩ | ⟨heq, hstage⟩
    · exact (h.sessions e hmem).touch_of_ne hi hne deed
    · rw [heq, ← hstage]
      exact has_touch_self hi hj deed
  tasks := by
    intro e he
    rcases htasks e he with ⟨hmem, hne⟩ | ⟨heq, hstage⟩
    · exact (h.tasks e hmem).touch_of_ne hi hne deed
    · rw [heq, ← hstage]
      exact has_touch_self hi hj deed
  distinct := h.distinct
  sessions_distinct := hdistinct
  tasks_distinct := hdistinct'

/-- What is done about a request adds what it shows. -/
theorem adds_touch (svc : Service In Out) (hi : ids[i]? = some id) (hj : t.journeys[i]? = some j)
    (deed : Deed) :
    Adds ids t (t.touch svc i deed) (ofRequest id (j.shows svc t.estimators deed).1) := by
  refine ⟨now_touch svc t i deed, mark t.now i (j.shows svc t.estimators deed).1,
    by rw [touch_eq svc hj], ?_⟩
  rw [Names, mark, ofRequest, List.map_map, List.map_map, List.map_map]
  apply List.map_congr_left
  intro e _
  simp only [Function.comp_apply, hi]

/-- A session is polled as its journey is. -/
theorem Mirrors.pollSession {s : Session In Out} {rest : List (Nat × Session In Out)}
    (h : Mirrors svc ids { x with sessions := x.sessions ++ (id, s) :: rest } t) :
    ∃ i, Mirrors svc ids
        { (x.pollSession id s).2 with sessions := (x.pollSession id s).2.sessions ++ rest }
        (t.touch svc i .poll) ∧
      Adds ids t (t.touch svc i .poll) (x.pollSession id s).1.entries := by
  have hmem : (id, s) ∈ x.sessions ++ (id, s) :: rest :=
    List.mem_append_right _ List.mem_cons_self
  obtain ⟨i, j, hi, hj, hheld⟩ := h.sessions (id, s) hmem
  have hmoment : j.moment = x.moment id := h.moment_eq i id j hi hj
  have hes : t.estimators = x.estimators := h.estimators_eq
  obtain ⟨hrest, hothers⟩ := distinct_of_middle h.sessions_distinct
  have htasks : ∀ e ∈ x.tasks, e ∈ x.tasks ∧ e.1 ≠ id :=
    fun e he => ⟨he, (h.ne_of_mem hmem he).symm⟩
  obtain rfl : x.service = svc := h.service_eq
  have hshows : j.shows x.service t.estimators .poll =
      ((s.poll x.service (x.moment id) x.estimators).entries,
        (s.poll x.service (x.moment id) x.estimators).estimators) := by
    simp only [Journey.shows, hheld, hmoment, hes]
  have hstage : (j.step x.service (Deed.poll.act t.estimators)).stage =
      (j.conclude (s.poll x.service (x.moment id) x.estimators).progress).stage := by
    rw [Deed.act, Journey.step, Journey.poll_of_held hheld, hmoment, hes]
    cases (s.poll x.service (x.moment id) x.estimators).progress <;> rfl
  have hadds := adds_touch x.service hi hj .poll
  have htouch := fun sessions tasks => h.touch sessions tasks hi hj
    (by simp : ∀ calls, .poll ≠ Deed.complete calls)
  refine ⟨i, ?_⟩
  unfold Exchange.pollSession
  rw [hshows] at hadds
  rw [hshows, hstage] at htouch
  generalize s.poll x.service (x.moment id) x.estimators = polled at hadds htouch ⊢
  obtain ⟨entries, es, progress⟩ := polled
  cases progress with
  | pending s' =>
    refine ⟨htouch (x.sessions ++ [(id, s')] ++ rest) x.tasks ?_ ?_ ?_ h.tasks_distinct, hadds⟩
    · intro e he
      rcases mem_middle he with he | rfl
      · exact .inl (hothers e he)
      · exact .inr ⟨rfl, rfl⟩
    · exact fun e he => .inl (htasks e he)
    · simpa using h.sessions_distinct
  | ended ending cancelled =>
    exact ⟨htouch (x.sessions ++ rest) x.tasks (fun e he => .inl (hothers e he))
      (fun e he => .inl (htasks e he)) hrest h.tasks_distinct, hadds⟩
  | handedOver output listeners left =>
    refine ⟨htouch (x.sessions ++ rest) (x.tasks ++ [(id, ⟨listeners, left⟩)])
      (fun e he => .inl (hothers e he)) ?_ hrest ?_, hadds⟩
    · intro e he
      rw [List.mem_append, List.mem_singleton] at he
      rcases he with he | rfl
      · exact .inl (htasks e he)
      · exact .inr ⟨rfl, rfl⟩
    · rw [List.map_append, List.map_cons, List.map_nil, List.nodup_middle, List.append_nil]
      refine List.nodup_cons.mpr ⟨?_, h.tasks_distinct⟩
      intro hid
      obtain ⟨e, he, hid⟩ := List.mem_map.mp hid
      exact (htasks e he).2 hid

/-- A task is polled as its journey is. -/
theorem Mirrors.pollTask {task : Task In Out} {rest : List (Nat × Task In Out)}
    (h : Mirrors svc ids { x with tasks := x.tasks ++ (id, task) :: rest } t) :
    ∃ i, Mirrors svc ids
        { (x.pollTask id task).2 with tasks := (x.pollTask id task).2.tasks ++ rest }
        (t.touch svc i .drive) ∧
      Adds ids t (t.touch svc i .drive) (x.pollTask id task).1.entries := by
  have hmem : (id, task) ∈ x.tasks ++ (id, task) :: rest :=
    List.mem_append_right _ List.mem_cons_self
  obtain ⟨i, j, hi, hj, htask⟩ := h.tasks (id, task) hmem
  have hmoment : j.moment = x.moment id := h.moment_eq i id j hi hj
  have hes : t.estimators = x.estimators := h.estimators_eq
  obtain ⟨hrest, hothers⟩ := distinct_of_middle h.tasks_distinct
  have hsessions : ∀ e ∈ x.sessions, e ∈ x.sessions ∧ e.1 ≠ id :=
    fun e he => ⟨he, h.ne_of_mem he hmem⟩
  obtain rfl : x.service = svc := h.service_eq
  have hshows : j.shows x.service t.estimators .drive =
      ((task.poll x.service (x.moment id) x.estimators).entries,
        (task.poll x.service (x.moment id) x.estimators).estimators) := by
    simp only [Journey.shows, htask, hmoment, hes]
  have hpending : ∀ task', (task.poll x.service (x.moment id) x.estimators).progress =
      .pending task' →
      (j.step x.service (Deed.drive.act t.estimators)).stage = .straggling task' := by
    intro task' hprogress
    simp only [Deed.act, Journey.step, Journey.drive, htask, hmoment, hes, hprogress,
      Journey.Stage.ofTask]
  have hadds := adds_touch x.service hi hj .drive
  have htouch := fun sessions tasks => h.touch sessions tasks hi hj
    (by simp : ∀ calls, .drive ≠ Deed.complete calls)
  refine ⟨i, ?_⟩
  unfold Exchange.pollTask
  rw [hshows] at hadds
  rw [hshows] at htouch
  generalize task.poll x.service (x.moment id) x.estimators = polled at hpending hadds htouch ⊢
  obtain ⟨entries, es, progress⟩ := polled
  have hgone := htouch x.sessions (x.tasks ++ rest) (fun e he => .inl (hsessions e he))
    (fun e he => .inl (hothers e he)) h.sessions_distinct hrest
  cases progress with
  | pending task' =>
    refine ⟨htouch x.sessions (x.tasks ++ [(id, task')] ++ rest)
      (fun e he => .inl (hsessions e he)) ?_ h.sessions_distinct ?_, hadds⟩
    · intro e he
      rcases mem_middle he with he | rfl
      · exact .inl (hothers e he)
      · exact .inr ⟨rfl, hpending task' rfl⟩
    · simpa using h.tasks_distinct
  | done => exact ⟨hgone, hadds⟩
  | crashed crash => exact ⟨hgone, hadds⟩

end Touch

/-! ## Polls -/

section Polls

variable {svc : Service In Out} {ids : List Nat} {x : Exchange In Out} {t t' t'' : Traffic In Out}

theorem adds_refl (ids : List Nat) (t : Traffic In Out) : Adds ids t t [] :=
  ⟨rfl, [], (List.append_nil _).symm, rfl⟩

theorem Adds.trans {entries entries' : List (Nat × Entry In Out)} (h : Adds ids t t' entries)
    (h' : Adds ids t' t'' entries') : Adds ids t t'' (entries ++ entries') := by
  obtain ⟨hnow, new, htrace, hnew⟩ := h
  obtain ⟨hnow', new', htrace', hnew'⟩ := h'
  refine ⟨hnow'.trans hnow, new ++ new', ?_, ?_⟩
  · rw [htrace', htrace, List.append_assoc]
  · rw [hnow] at hnew'
    rw [List.map_append]
    exact hnew.append hnew'

/-- Sessions are polled in their order. -/
theorem Mirrors.pollSessions {list : List (Nat × Session In Out)}
    (h : Mirrors svc ids { x with sessions := x.sessions ++ list } t) :
    ∃ acts, Mirrors svc ids (x.pollSessions list).2 (t.run svc acts) ∧
      Adds ids t (t.run svc acts) (x.pollSessions list).1.entries := by
  induction list generalizing x t with
  | nil =>
    rw [List.append_nil] at h
    exact ⟨[], h, adds_refl ids t⟩
  | cons e list ih =>
    obtain ⟨i, hfirst, hadds⟩ := h.pollSession
    obtain ⟨acts, hrest, hadds'⟩ := ih hfirst
    exact ⟨.touch i .poll :: acts, hrest, hadds.trans hadds'⟩

/-- Tasks are polled in their order. -/
theorem Mirrors.pollTasks {list : List (Nat × Task In Out)}
    (h : Mirrors svc ids { x with tasks := x.tasks ++ list } t) :
    ∃ acts, Mirrors svc ids (x.pollTasks list).2 (t.run svc acts) ∧
      Adds ids t (t.run svc acts) (x.pollTasks list).1.entries := by
  induction list generalizing x t with
  | nil =>
    rw [List.append_nil] at h
    exact ⟨[], h, adds_refl ids t⟩
  | cons e list ih =>
    obtain ⟨i, hfirst, hadds⟩ := h.pollTask
    obtain ⟨acts, hrest, hadds'⟩ := ih hfirst
    exact ⟨.touch i .drive :: acts, hrest, hadds.trans hadds'⟩

/-- To poll everything is to poll the sessions and then the tasks. -/
theorem Mirrors.pollAll (h : Mirrors svc ids x t) :
    ∃ acts, Mirrors svc ids x.pollAll.2 (t.run svc acts) ∧
      Adds ids t (t.run svc acts) x.pollAll.1.entries := by
  have hsessions : Mirrors svc ids
      { ({ x with sessions := [] } : Exchange In Out) with sessions := [] ++ x.sessions } t := h
  obtain ⟨acts, hpolled, hadds⟩ := hsessions.pollSessions
  generalize hx : ({ x with sessions := [] } : Exchange In Out).pollSessions x.sessions = polled
    at hpolled hadds
  obtain ⟨requests, x'⟩ := polled
  have htasks : Mirrors svc ids
      { ({ x' with tasks := [] } : Exchange In Out) with tasks := [] ++ x'.tasks }
      (t.run svc acts) := hpolled
  obtain ⟨acts', hdriven, hadds'⟩ := htasks.pollTasks
  refine ⟨acts ++ acts', ?_, ?_⟩
  · rw [Traffic.run, List.foldl_append]
    simp only [Exchange.pollAll, hx]
    exact hdriven
  · rw [Traffic.run, List.foldl_append]
    simp only [Exchange.pollAll, hx, Outturn.append]
    exact hadds.trans hadds'

end Polls

/-! ## Happenings -/

section Happenings

variable {svc : Service In Out} {ids : List Nat} {x : Exchange In Out} {t : Traffic In Out}

/-- All that are listed are on their journeys. -/
theorem Mirrors.exists_journey (h : Mirrors svc ids x t) {i id : Nat} (hi : ids[i]? = some id) :
    ∃ j, t.journeys[i]? = some j :=
  ⟨_, List.getElem?_eq_getElem (h.length_eq ▸ (List.getElem?_eq_some_iff.mp hi).1)⟩

/-- A request that arrives is listed behind all others. -/
theorem Mirrors.start (h : Mirrors svc ids x t) {id : Nat} (hnew : id ∉ ids) (request : In) :
    ∃ acts, Mirrors svc (ids ++ [id]) (x.apply (.start id request)).2 (t.run svc acts) ∧
      (t.run svc acts).trace = t.trace := by
  have hrun : t.run svc [.arrive request,
      .touch t.journeys.length (.complete (x.moment id).opened)] =
      { t with journeys := t.journeys ++ [.fresh t.now (x.moment id).opened request] } := by
    simp [Traffic.run, Traffic.step, Traffic.touch, Journey.shows, Journey.fresh, Journey.step,
      Deed.act, mark]
  have hold : ∀ id' stage, t.Has ids id' stage →
      ({ t with journeys := t.journeys ++ [.fresh t.now (x.moment id).opened request] } :
        Traffic In Out).Has (ids ++ [id]) id' stage := by
    rintro id' stage ⟨i, j, hi, hj, hstage⟩
    refine ⟨i, j, ?_, ?_, hstage⟩
    · rw [List.getElem?_append_left (List.getElem?_eq_some_iff.mp hi).1]
      exact hi
    · rw [List.getElem?_append_left (List.getElem?_eq_some_iff.mp hj).1]
      exact hj
  refine ⟨_, ?_, by rw [hrun]⟩
  rw [hrun]
  exact { h with
    length_eq := by
      rw [List.length_append, List.length_append, h.length_eq]
      rfl
    moment_eq := by
      intro i id' j hi hj
      rcases Nat.lt_or_ge i ids.length with hlt | hge
      · rw [List.getElem?_append_left hlt] at hi
        rw [List.getElem?_append_left (h.length_eq ▸ hlt)] at hj
        exact h.moment_eq i id' j hi hj
      · rw [List.getElem?_append_right hge, List.getElem?_singleton] at hi
        rw [List.getElem?_append_right (h.length_eq ▸ hge), List.getElem?_singleton,
          h.length_eq] at hj
        split at hi
        · rename_i hzero
          rw [if_pos hzero] at hj
          cases hi
          cases hj
          exact congrArg (Moment.mk · (x.moment id).opened) h.now_eq
        · cases hi
    sessions := by
      intro e he
      rcases List.mem_append.mp he with he | he
      · exact hold _ _ (h.sessions e he)
      · obtain rfl := List.mem_singleton.mp he
        refine ⟨ids.length, .fresh t.now (x.moment id).opened request,
          List.getElem?_concat_length, ?_, rfl⟩
        rw [← h.length_eq]
        exact List.getElem?_concat_length
    tasks := fun e he => hold _ _ (h.tasks e he)
    distinct := by
      rw [List.nodup_middle, List.append_nil]
      exact List.nodup_cons.mpr ⟨hnew, h.distinct⟩
    sessions_distinct := by
      have hfresh : id ∉ x.sessions.map Prod.fst := by
        intro hmem
        obtain ⟨e, he, rfl⟩ := List.mem_map.mp hmem
        obtain ⟨i, -, hi, -⟩ := h.sessions e he
        exact hnew (List.mem_of_getElem? hi)
      show ((x.sessions ++ [(id, _)]).map Prod.fst).Nodup
      rw [List.map_append, List.map_cons, List.map_nil, List.nodup_middle, List.append_nil]
      exact List.nodup_cons.mpr ⟨hfresh, h.sessions_distinct⟩ }

/-- Time passes for all at once. -/
theorem Mirrors.advance (h : Mirrors svc ids x t) (d : Duration) :
    Mirrors svc ids (x.apply (.advance d)).2 (t.step svc (.advance d)) := by
  have hsame : ∀ id stage, t.Has ids id stage → (t.step svc (.advance d)).Has ids id stage := by
    rintro id stage ⟨i, j, hi, hj, hstage⟩
    refine ⟨i, j.step svc (.advance d), hi, ?_, hstage⟩
    simp only [Traffic.step, List.getElem?_map, hj, Option.map_some]
  exact { h with
    now_eq := congrArg (· + d.nanos) h.now_eq
    length_eq := (List.length_map _).trans h.length_eq
    moment_eq := by
      intro i id j hi hj
      simp only [Traffic.step, List.getElem?_map] at hj
      obtain ⟨j', hj', rfl⟩ := Option.map_eq_some_iff.mp hj
      obtain ⟨hnow, hopened⟩ := Moment.mk.inj (h.moment_eq i id j' hi hj')
      show (⟨j'.now + d.nanos, j'.opened⟩ : Moment) = _
      rw [hnow, hopened]
      rfl
    sessions := fun e he => hsame _ _ (h.sessions e he)
    tasks := fun e he => hsame _ _ (h.tasks e he) }

/-- A call is opened for the request of its identity, if there is one. -/
theorem Mirrors.open (h : Mirrors svc ids x t) (call : Nat × Nat) :
    ∃ acts, Mirrors svc ids { x with opened := x.opened ++ [call] } (t.run svc acts) ∧
      (t.run svc acts).trace = t.trace := by
  obtain ⟨id, c⟩ := call
  have hopened : ∀ id', ({ x with opened := x.opened ++ [(id, c)] } : Exchange In Out).moment id' =
      ⟨x.now, (x.moment id').opened ++ if id = id' then [c] else []⟩ := by
    intro id'
    simp only [moment, List.filterMap_append]
    by_cases hid : id = id' <;> simp [hid]
  by_cases hlisted : ∃ i : Nat, ids[i]? = some id
  · obtain ⟨i, hi⟩ := hlisted
    obtain ⟨j, hj⟩ := h.exists_journey hi
    have hsame : ∀ id' stage, t.Has ids id' stage →
        (t.touch svc i (.complete [c])).Has ids id' stage := by
      intro id' stage hstage
      by_cases hid : id' = id
      · subst hid
        rw [← Has.unique h.distinct ⟨i, j, hi, hj, rfl⟩ hstage]
        exact has_touch_self hi hj (.complete [c])
      · exact hstage.touch_of_ne hi hid _
    refine ⟨[.touch i (.complete [c])], ?_, ?_⟩
    · show Mirrors svc ids _ (t.touch svc i (.complete [c]))
      exact { h with
        now_eq := (now_touch svc t i _).trans h.now_eq
        estimators_eq := by
          rw [touch_eq svc hj]
          exact h.estimators_eq
        length_eq := by
          rw [touch_eq svc hj]
          exact List.length_set.trans h.length_eq
        moment_eq := by
          intro k id' j' hk hj'
          rw [touch_eq svc hj] at hj'
          rw [hopened]
          by_cases hki : k = i
          · subst hki
            rw [List.getElem?_set_self (List.getElem?_eq_some_iff.mp hj).1] at hj'
            cases hj'
            cases hi.symm.trans hk
            obtain ⟨hnow, hcalls⟩ := Moment.mk.inj (h.moment_eq k id j hi hj)
            show (⟨j.now, j.opened ++ [c]⟩ : Moment) = _
            rw [hnow, hcalls, if_pos rfl]
            rfl
          · have hne : id ≠ id' := by
              rintro rfl
              exact hki (index_unique h.distinct hk hi)
            rw [List.getElem?_set_ne (Ne.symm hki)] at hj'
            rw [if_neg hne, List.append_nil]
            exact h.moment_eq k id' j' hk hj'
        sessions := fun e he => hsame _ _ (h.sessions e he)
        tasks := fun e he => hsame _ _ (h.tasks e he) }
    · show (t.touch svc i (.complete [c])).trace = t.trace
      rw [touch_eq svc hj]
      exact List.append_nil _
  · refine ⟨[], { h with moment_eq := ?_ }, rfl⟩
    intro k id' j hk hj
    have hne : id ≠ id' := by
      rintro rfl
      exact hlisted ⟨k, hk⟩
    rw [hopened, if_neg hne, List.append_nil]
    exact h.moment_eq k id' j hk hj

/-- The caller of a request drops it, if there is one. -/
theorem Mirrors.drop (h : Mirrors svc ids x t) (id : Nat) :
    ∃ acts, Mirrors svc ids (x.apply (.drop id)).2 (t.run svc acts) ∧
      (t.run svc acts).trace = t.trace := by
  have hmem : ∀ e ∈ x.sessions.filter (fun s => s.1 ≠ id), e ∈ x.sessions ∧ e.1 ≠ id := by
    intro e he
    obtain ⟨he, hne⟩ := List.mem_filter.mp he
    exact ⟨he, by simpa using hne⟩
  have hdistinct : ((x.sessions.filter fun s => s.1 ≠ id).map Prod.fst).Nodup :=
    h.sessions_distinct.sublist (List.filter_sublist.map _)
  by_cases hlisted : ∃ i : Nat, ids[i]? = some id
  · obtain ⟨i, hi⟩ := hlisted
    obtain ⟨j, hj⟩ := h.exists_journey hi
    have htasks : ∀ e ∈ x.tasks, e ∈ x.tasks ∧ e.1 ≠ id ∨
        e.1 = id ∧ (j.step svc (Deed.drop.act t.estimators)).stage = .straggling e.2 := by
      intro e he
      by_cases hne : e.1 = id
      · have hstage : j.stage = .straggling e.2 :=
          Has.unique h.distinct ⟨i, j, hi, hj, rfl⟩ (hne ▸ h.tasks e he)
        refine .inr ⟨hne, ?_⟩
        rw [Deed.act, Journey.step, Journey.drop_of_not_held (by simp [hstage])]
        exact hstage
      · exact .inl ⟨he, hne⟩
    have htouch := h.touch _ x.tasks hi hj (by simp : ∀ calls, .drop ≠ Deed.complete calls)
      (fun e he => .inl (hmem e he)) htasks hdistinct h.tasks_distinct
    refine ⟨[.touch i .drop], ?_, ?_⟩
    · have hes : (j.shows svc t.estimators .drop).2 = x.estimators := h.estimators_eq
      rw [hes] at htouch
      exact htouch
    · show (t.touch svc i .drop).trace = t.trace
      rw [touch_eq svc hj]
      exact List.append_nil _
  · exact ⟨[], { h with
      sessions := fun e he => h.sessions e (hmem e he).1
      sessions_distinct := hdistinct }, rfl⟩

/-- Opening calls is traffic that shows nothing. -/
theorem Mirrors.complete (h : Mirrors svc ids x t) (calls : List (Nat × Nat)) :
    ∃ acts, Mirrors svc ids (x.apply (.complete calls)).2 (t.run svc acts) ∧
      (t.run svc acts).trace = t.trace := by
  induction calls generalizing x t with
  | nil =>
    refine ⟨[], ?_, rfl⟩
    rw [apply, List.append_nil]
    exact h
  | cons call calls ih =>
    obtain ⟨acts, hopen, htrace⟩ := h.open call
    obtain ⟨acts', hrest, htrace'⟩ := ih hopen
    refine ⟨acts ++ acts', ?_, ?_⟩
    · rw [Traffic.run, List.foldl_append]
      simp only [apply, List.append_assoc, List.singleton_append] at hrest
      exact hrest
    · rw [Traffic.run, List.foldl_append]
      exact htrace'.trans htrace

/-- What happens to an exchange, happens to the traffic, and shows nothing by itself. -/
theorem Mirrors.apply (h : Mirrors svc ids x t) (happening : Happening In)
    (hnew : ∀ id ∈ happening.starts?, id ∉ ids) :
    ∃ acts, Mirrors svc (ids ++ happening.starts?.toList) (x.apply happening).2 (t.run svc acts) ∧
      (t.run svc acts).trace = t.trace := by
  cases happening with
  | start id request => exact h.start (hnew id rfl) request
  | advance d =>
    refine ⟨[.advance d], ?_, rfl⟩
    simp only [Happening.starts?, Option.toList_none, List.append_nil]
    exact h.advance d
  | complete calls =>
    simp only [Happening.starts?, Option.toList_none, List.append_nil]
    exact h.complete calls
  | drop id =>
    simp only [Happening.starts?, Option.toList_none, List.append_nil]
    exact h.drop id
  | dropTasks =>
    -- nobody drives the tasks any more
    simp only [Happening.starts?, Option.toList_none, List.append_nil]
    exact ⟨[], { h with
      tasks := by rintro e ⟨⟩
      tasks_distinct := List.nodup_nil }, rfl⟩

/-- A step of an exchange is a part of the traffic. -/
theorem Mirrors.step (h : Mirrors svc ids x t) (happening : Happening In)
    (hnew : ∀ id ∈ happening.starts?, id ∉ ids) :
    ∃ acts, Mirrors svc (ids ++ happening.starts?.toList) (x.step happening).2 (t.run svc acts) ∧
      ∃ new, (t.run svc acts).trace = t.trace ++ new ∧
        Names (ids ++ happening.starts?.toList) new
          ((x.step happening).1.entries.map fun e => ((x.step happening).2.now, e)) := by
  obtain ⟨acts, happlied, htrace⟩ := h.apply happening hnew
  obtain ⟨acts', hpolled, hadds⟩ := happlied.pollAll
  obtain ⟨hnow, new, hnews, hnames⟩ := hadds
  have hrun : t.run svc (acts ++ acts') = (t.run svc acts).run svc acts' := List.foldl_append
  refine ⟨acts ++ acts', hrun ▸ hpolled, new, ?_, ?_⟩
  · rw [hrun, hnews, htrace]
  · rw [← hnow, hpolled.now_eq] at hnames
    exact hnames

end Happenings

/-! ## Runs -/

section Runs

variable {svc : Service In Out} {ids : List Nat} {x : Exchange In Out} {t : Traffic In Out}

def after (x : Exchange In Out) (happenings : List (Happening In)) : Exchange In Out :=
  happenings.foldl (fun x h => (x.step h).2) x

/-- What is observed of an exchange: when, of which request, and what. -/
def observed (x : Exchange In Out) : List (Happening In) → List (Instant × Nat × Entry In Out)
  | [] => []
  | h :: happenings =>
    ((x.step h).1.entries.map fun e => ((x.step h).2.now, e)) ++
      (x.step h).2.observed happenings

/-- All that happens to an exchange is traffic. -/
theorem Mirrors.run (h : Mirrors svc ids x t) (happenings : List (Happening In))
    (hdistinct : (ids ++ happenings.filterMap Happening.starts?).Nodup) :
    ∃ acts, Mirrors svc (ids ++ happenings.filterMap Happening.starts?) (x.after happenings)
        (t.run svc acts) ∧
      ∃ new, (t.run svc acts).trace = t.trace ++ new ∧
        Names (ids ++ happenings.filterMap Happening.starts?) new (x.observed happenings) := by
  induction happenings generalizing ids x t with
  | nil =>
    rw [List.filterMap_nil, List.append_nil]
    exact ⟨[], h, [], (List.append_nil _).symm, rfl⟩
  | cons happening happenings ih =>
    have hstarts : ids ++ (happening :: happenings).filterMap Happening.starts? =
        ids ++ happening.starts?.toList ++ happenings.filterMap Happening.starts? := by
      rw [List.filterMap_cons, List.append_assoc]
      cases happening.starts? <;> rfl
    rw [hstarts] at hdistinct ⊢
    have hnew : ∀ id ∈ happening.starts?, id ∉ ids := by
      intro id hid hmem
      have hdisjoint := List.nodup_append.mp (List.nodup_append.mp hdistinct).1
      exact hdisjoint.2.2 id hmem id (by simp [Option.mem_def.mp hid]) rfl
    obtain ⟨acts, hstep, new, htrace, hnames⟩ := h.step happening hnew
    obtain ⟨acts', hrest, new', htrace', hnames'⟩ := ih hstep hdistinct
    have hrun : t.run svc (acts ++ acts') = (t.run svc acts).run svc acts' := List.foldl_append
    refine ⟨acts ++ acts', hrun ▸ hrest, new ++ new', ?_, ?_⟩
    · rw [hrun, htrace', htrace, List.append_assoc]
    · exact (hnames.of_prefix_ids (List.prefix_append _ _)).append hnames'

/-- Whatever happens to an exchange whose requests are told apart, there is traffic in which the
same is observed, and its requests are where the journeys are. -/
theorem exists_traffic (svc : Service In Out) (es : Estimators)
    (happenings : List (Happening In))
    (hdistinct : (happenings.filterMap Happening.starts?).Nodup) :
    ∃ acts, Mirrors svc (happenings.filterMap Happening.starts?)
        ((new svc es).after happenings) ((quiet 0 es).run svc acts) ∧
      Names (happenings.filterMap Happening.starts?) ((quiet 0 es).run svc acts).trace
        ((new svc es).observed happenings) := by
  have hempty : Mirrors svc [] (new svc es) (quiet 0 es) := {
    service_eq := rfl
    now_eq := rfl
    estimators_eq := rfl
    length_eq := rfl
    moment_eq := by rintro i id j ⟨⟩
    sessions := by rintro e ⟨⟩
    tasks := by rintro e ⟨⟩
    distinct := List.nodup_nil
    sessions_distinct := List.nodup_nil
    tasks_distinct := List.nodup_nil }
  obtain ⟨acts, hmirrors, new, htrace, hnames⟩ := hempty.run happenings hdistinct
  refine ⟨acts, hmirrors, ?_⟩
  rw [htrace]
  exact hnames

end Runs

end Exchange

end RequestHedging
