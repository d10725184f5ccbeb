/-
# Which interfaces announce

`send_udp_message` walks the interface list twice: once to count, once to create a sender for
each address that the patterns select.  `StartBook` is kept beside a run for the proofs, and no
function of the source reads it: the list walked, the patterns stored, the rounds of the second
walk with what they met, and for each `BroadcastTask` how often it was freed.

`WalkInv` says that the senders are those the rounds ask for, in their order, and `TasksInv` that
a task is freed once, by its thread or by the creator whose `pthread_create` failed.  That the
patterns are those of `SELECTED_INTERFACES` needs the copies of them to be made (`Copied`).

The bound addresses are recorded at load and never looked at again; the last section says what
follows from that.
-/
import Unicaster.LifeCycle
import Unicaster.Patterns

namespace Unicaster

open CLib

/-! ## 1. The book -/

structure StartBook where
  /-- the list of the last walk -/
  ifaddr : List (Option InAddr)
  /-- which copies of patterns were made for it -/
  dupOk : Nat → Bool
  /-- the rounds of the second walk, in order, with what each met -/
  rounds : List (Option InAddr × System.SpawnOutcome)
  /-- the number of senders before that walk -/
  first : Nat
  /-- of each `BroadcastTask` allocated, how often it was freed -/
  frees : List Nat
  /-- of each sender, the task it was given -/
  tasks : List Nat

def StartBook.empty : StartBook := ⟨[], fun _ => true, [], 0, [], []⟩

def Sender.ended (th : Sender) : Bool :=
  match th.pc with
  | .exited => true
  | _ => false

namespace StartBook

variable (b : StartBook)

/-- The second walk begins. -/
def walk (s : System) (ifaddr : List (Option InAddr)) (dupOk : Nat → Bool) : StartBook :=
  { b with ifaddr := ifaddr, dupOk := dupOk, rounds := [], first := s.senders.length }

/-- One round of it: the task is allocated, and it goes to the thread, or is freed at once. -/
def round (s : System) (ifa : Option InAddr) (o : System.SpawnOutcome) : StartBook :=
  let matched := ifa.bind (fun a => ipMatchesPattern (inetNtop a) s.statics.ipPatterns) = some true
  let b := { b with rounds := b.rounds ++ [(ifa, o)] }
  if matched ∧ o.taskOk = true then
    if o.createOk = true then
      { b with frees := b.frees ++ [0], tasks := b.tasks ++ [b.frees.length] }
    else { b with frees := b.frees ++ [1] }
  else b

/-- `free(task)`, at the end of sender `t`. -/
def freeTask (t : Nat) : StartBook :=
  match b.tasks[t]? with
  | some k => { b with frees := b.frees.set k (b.frees.getD k 0 + 1) }
  | none => b

/-- The book behind a step. -/
def after (s : System) (a : Act) (s' : System) : StartBook :=
  match a with
  | .cron o =>
    match s'.main with
    | .spawning ifaddr => b.walk s ifaddr o.dupOk
    | _ => b
  | .main o =>
    match s.main with
    | .spawning (ifa :: _) => b.round s ifa o
    | _ => b
  | .sender t _ => if (s'.senders[t]?.map Sender.ended).getD false then b.freeTask t else b
  | _ => b

end StartBook

/-- A step of the system, with the book. -/
def System.bookStep (x : System × StartBook) (a : Act) : Option (System × StartBook) :=
  (x.1.step a).map fun s' => (s', x.2.after x.1 a s')

/-- The interfaces the second walk has still before it. -/
def MainPc.todo : MainPc → List (Option InAddr)
  | .spawning todo => todo
  | _ => []

/-- The sender a round asks for: its address is selected, and nothing fails. -/
def started (selects : Text → Bool) (round : Option InAddr × System.SpawnOutcome) :
    Option InAddr :=
  round.1.filter fun a => selects (inetNtop a) && round.2.taskOk && round.2.createOk

/-- What the stored patterns select. -/
def storedSelect (patterns : List (Option Text)) (ip : Text) : Bool :=
  ipMatchesPattern ip patterns == some true

/-- The call gets past its first walk. -/
def System.StartOutcome.Walks (o : System.StartOutcome) : Prop :=
  ∃ ifaddr, o.ifaddrs = some ifaddr ∧ ifaddr.countP (·.isSome) ≠ 0 ∧ o.idsOk = true

/-- The tick is the one that starts the senders. -/
def Starts (s : System) (o : System.StartOutcome) : Prop :=
  s.statics.announced = false ∧ s.cache.closing = false ∧
    (s.cache.podCacheStart o.clientOk o.threadOk).2 = true ∧ o.Walks

/-- The side condition: where the patterns are read, their copies are made. -/
def PatternsCopied (x : System × StartBook) (a : Act) : Prop :=
  ∀ o, a = .cron o → Starts x.1 o → CopiesOk x.1.cache.environ o.copyOk o.dupOk

/-! ## 2. The invariants -/

/-- **The senders are those the second walk asks for**, in the order of the list. -/
structure WalkInv (e : Environ) (s : System) (b : StartBook) : Prop where
  environ : s.cache.environ = e
  first : b.first ≤ s.senders.length
  walked : b.rounds.map (·.1) ++ s.main.todo = b.ifaddr
  sources : (s.senders.map (·.task.sourceIp)).drop b.first =
    (b.rounds.filterMap (started (storedSelect (storedPatterns e b.dupOk)))).map inetNtop
  /-- while it walks, `thread_ids` has the places that were counted -/
  walking : ∀ todo, s.main = .spawning todo → s.statics.ipPatterns = storedPatterns e b.dupOk ∧
    s.statics.threadIds.map (·.length) = some (b.ifaddr.countP (·.isSome))

/-- **A task is freed once**: by its thread when that ends, or by the creator. -/
structure TasksInv (s : System) (b : StartBook) : Prop where
  length : b.tasks.length = s.senders.length
  nodup : b.tasks.Nodup
  lt : ∀ k ∈ b.tasks, k < b.frees.length
  thread : ∀ (t : Nat) (th : Sender) (k : Nat), s.senders[t]? = some th → b.tasks[t]? = some k →
    b.frees[k]? = some (if th.ended then 1 else 0)
  creator : ∀ k < b.frees.length, k ∉ b.tasks → b.frees[k]? = some 1

section Walks

variable {s s' : System} {b : StartBook} {e : Environ}

/-- The senders stay, and no walk is going on or begins. -/
theorem WalkInv.still (h : WalkInv e s b) (hen : s'.cache.environ = s.cache.environ)
    (hsrc : s'.senders.map (·.task.sourceIp) = s.senders.map (·.task.sourceIp))
    (htodo : s'.main.todo = s.main.todo)
    (hwalk : ∀ todo, s'.main = .spawning todo → s.main = .spawning todo ∧
      s'.statics.ipPatterns = s.statics.ipPatterns ∧
      s'.statics.threadIds = s.statics.threadIds) : WalkInv e s' b where
  environ := hen.trans h.environ
  first := by
    have hlen := congrArg List.length hsrc
    rw [List.length_map, List.length_map] at hlen
    rw [hlen]
    exact h.first
  walked := by
    rw [htodo]
    exact h.walked
  sources := by
    rw [hsrc]
    exact h.sources
  walking := by
    intro todo hm
    obtain ⟨hm', hp, ht⟩ := hwalk todo hm
    rw [hp, ht]
    exact h.walking todo hm'

/-- ... of a step that leaves the main thread and its variables alone. -/
theorem WalkInv.aside (h : WalkInv e s b) (hen : s'.cache.environ = s.cache.environ)
    (hsrc : s'.senders.map (·.task.sourceIp) = s.senders.map (·.task.sourceIp))
    (hm : s'.main = s.main) (hst : s'.statics = s.statics) : WalkInv e s' b :=
  h.still hen hsrc (by rw [hm]) fun todo hs => ⟨hm ▸ hs, by rw [hst], by rw [hst]⟩

/-- What `send_udp_message` does up to its loop: it returns, or it reads the patterns, and then
it walks. -/
theorem sendUdpMessage_walks (s : System) (o : System.StartOutcome) :
    (¬ o.Walks ∧ ∃ ids, s.sendUdpMessage o =
      { s with statics := { s.statics with threadCount := 0, threadIds := ids } }) ∨
    o.Walks ∧
      (initIpPatterns s.cache.environ o.copyOk o.dupOk s.statics.ipPatterns = none ∧
        s.sendUdpMessage o =
          { s with statics := { s.statics with threadCount := 0 }, undefined := true } ∨
      ∃ ifaddr patterns,
        initIpPatterns s.cache.environ o.copyOk o.dupOk s.statics.ipPatterns = some patterns ∧
        ifaddr ≠ [] ∧ s.sendUdpMessage o =
          { s with
            statics :=
              { s.statics with
                threadCount := 0
                threadIds := some (List.replicate (ifaddr.countP (·.isSome)) none)
                ipPatterns := patterns }
            main := .spawning ifaddr }) := by
  unfold System.sendUdpMessage System.StartOutcome.Walks
  dsimp only
  cases hif : o.ifaddrs with
  | none => exact Or.inl ⟨by simp, s.statics.threadIds, rfl⟩
  | some ifaddr =>
    dsimp only
    by_cases h0 : ifaddr.countP (·.isSome) = 0
    · rw [if_pos h0]
      refine Or.inl ⟨?_, s.statics.threadIds, rfl⟩
      rintro ⟨l, hl, hne, -⟩
      exact hne (Option.some.inj hl ▸ h0)
    · rw [if_neg h0]
      by_cases hids : o.idsOk = true
      · rw [if_pos hids]
        refine Or.inr ⟨⟨ifaddr, rfl, h0, hids⟩, ?_⟩
        cases hpat : initIpPatterns s.cache.environ o.copyOk o.dupOk s.statics.ipPatterns with
        | none => exact Or.inl ⟨rfl, rfl⟩
        | some patterns =>
          refine Or.inr ⟨ifaddr, patterns, rfl, ?_, rfl⟩
          rintro rfl
          exact h0 rfl
      · rw [if_neg hids]
        exact Or.inl ⟨by simp [hids], none, rfl⟩

/-- The book's other columns do not matter for the walk. -/
theorem WalkInv.book {b' : StartBook} (h : WalkInv e s b) (h1 : b'.ifaddr = b.ifaddr)
    (h2 : b'.dupOk = b.dupOk) (h3 : b'.rounds = b.rounds) (h4 : b'.first = b.first) :
    WalkInv e s b' where
  environ := h.environ
  first := h4 ▸ h.first
  walked := by
    rw [h1, h3]
    exact h.walked
  sources := by
    rw [h2, h3, h4]
    exact h.sources
  walking := by
    rw [h1, h2]
    exact h.walking

theorem freeTask_walk (b : StartBook) (t : Nat) :
    (b.freeTask t).ifaddr = b.ifaddr ∧ (b.freeTask t).dupOk = b.dupOk ∧
      (b.freeTask t).rounds = b.rounds ∧ (b.freeTask t).first = b.first := by
  unfold StartBook.freeTask
  split <;> exact ⟨rfl, rfl, rfl, rfl⟩

theorem round_walk (b : StartBook) (s : System) (ifa : Option InAddr) (o : System.SpawnOutcome) :
    (b.round s ifa o).ifaddr = b.ifaddr ∧ (b.round s ifa o).dupOk = b.dupOk ∧
      (b.round s ifa o).rounds = b.rounds ++ [(ifa, o)] ∧ (b.round s ifa o).first = b.first := by
  unfold StartBook.round
  dsimp only
  split
  · split <;> exact ⟨rfl, rfl, rfl, rfl⟩
  · exact ⟨rfl, rfl, rfl, rfl⟩

/-- Before a start no pattern is stored: those of earlier loads are gone. -/
theorem LifeInv.no_patterns (hl : LifeInv s) (hm : s.main = .idle)
    (hno : s.statics.announced = false) : s.statics.ipPatterns = [] := by
  obtain ⟨-, -, -, hclean⟩ := hl.clean hm fun hlive => by
    rw [hlive.2.1] at hno
    exact absurd hno (by simp)
  exact hclean

/-- The second walk begins. -/
theorem WalkInv.begin (h : WalkInv e s b) {ifaddr : List (Option InAddr)} {dupOk : Nat → Bool}
    (hen : s'.cache.environ = s.cache.environ) (hsend : s'.senders = s.senders)
    (hm : s'.main = .spawning ifaddr) (hpat : s'.statics.ipPatterns = storedPatterns e dupOk)
    (hids : s'.statics.threadIds = some (List.replicate (ifaddr.countP (·.isSome)) none)) :
    WalkInv e s' (b.walk s ifaddr dupOk) where
  environ := hen.trans h.environ
  first := by
    rw [hsend]
    exact Nat.le_refl _
  walked := by
    rw [hm]
    rfl
  sources := by
    rw [hsend]
    simp [StartBook.walk]
  walking := by
    intro todo _
    rw [hids]
    exact ⟨hpat, by simp [StartBook.walk]⟩

theorem started_of {sel : Text → Bool} {a : InAddr} {o : System.SpawnOutcome}
    (h : sel (inetNtop a) = true ∧ o.taskOk = true ∧ o.createOk = true) :
    started sel (some a, o) = some a := by
  obtain ⟨hs, htask, hcreate⟩ := h
  simp [started, hs, htask, hcreate]

theorem not_started_of {sel : Text → Bool} {a : InAddr} {o : System.SpawnOutcome}
    (h : ¬ (sel (inetNtop a) = true ∧ o.taskOk = true ∧ o.createOk = true)) :
    started sel (some a, o) = none := by
  have hand : ¬ (sel (inetNtop a) && o.taskOk && o.createOk) = true := by
    simpa [and_assoc] using h
  simpa [started, Option.filter] using hand

/-- The round that creates a sender. -/
theorem spawnStep_started {a : InAddr} {o : System.SpawnOutcome} {slots : List (Option Nat)}
    (hslots : s.statics.threadIds = some slots) (hlt : s.statics.threadCount < slots.length)
    (h : storedSelect s.statics.ipPatterns (inetNtop a) = true ∧ o.taskOk = true ∧
      o.createOk = true) :
    s.spawnStep (some a) o =
      { s with
        cache := { s.cache with readers := s.cache.readers ++ [⟨none, none, []⟩] }
        senders := s.senders ++ [Sender.create (BroadcastTask.create (inetNtop a)
          s.statics.globalRedisPort s.statics.globalRedisTls)]
        statics :=
          { s.statics with
            threadIds := some (slots.set s.statics.threadCount (some s.senders.length))
            threadCount := s.statics.threadCount + 1 } } := by
  obtain ⟨hs, htask, hcreate⟩ := h
  have hsel : ipMatchesPattern (inetNtop a) s.statics.ipPatterns = some true := eq_of_beq hs
  simp only [System.spawnStep, hsel, htask, hcreate, and_self, if_true, System.spawn, hslots,
    if_pos hlt]

/-- The round that creates none. -/
theorem spawnStep_skipped {a : InAddr} {o : System.SpawnOutcome}
    (h : ¬ (storedSelect s.statics.ipPatterns (inetNtop a) = true ∧ o.taskOk = true ∧
      o.createOk = true)) :
    s.spawnStep (some a) o = s ∨ s.spawnStep (some a) o = { s with undefined := true } := by
  unfold System.spawnStep
  dsimp only
  split
  · exact Or.inr rfl
  · exact Or.inl rfl
  · rename_i hsel
    exact Or.inl (if_neg fun hok => h ⟨by simp [storedSelect, hsel], hok⟩)

/-- What is left of the list is what was not walked yet. -/
theorem WalkInv.walked_round (h : WalkInv e s b) {ifa : Option InAddr}
    {todo : List (Option InAddr)} (o : System.SpawnOutcome)
    (hm : s.main = .spawning (ifa :: todo)) :
    (b.round s ifa o).rounds.map (·.1) ++ todo = (b.round s ifa o).ifaddr := by
  obtain ⟨h1, -, h3, -⟩ := round_walk b s ifa o
  have hw := h.walked
  rw [hm] at hw
  rw [h1, h3, List.map_append, ← hw]
  simp [MainPc.todo]

/-- The book of a round that creates nothing. -/
theorem WalkInv.skip (h : WalkInv e s b) {ifa : Option InAddr} {todo : List (Option InAddr)}
    {o : System.SpawnOutcome} (hm : s.main = .spawning (ifa :: todo))
    (hno : started (storedSelect (storedPatterns e b.dupOk)) (ifa, o) = none)
    (hca : (s.spawnStep ifa o).cache = s.cache) (hsend : (s.spawnStep ifa o).senders = s.senders)
    (hst : (s.spawnStep ifa o).statics = s.statics) :
    WalkInv e { s.spawnStep ifa o with main := .spawning todo } (b.round s ifa o) := by
  obtain ⟨h1, h2, h3, h4⟩ := round_walk b s ifa o
  refine ⟨(congrArg PodCache.environ hca).trans h.environ, ?_, h.walked_round o hm, ?_,
    fun _ _ => ?_⟩
  · rw [h4, hsend]
    exact h.first
  · have hsrc := h.sources
    rw [h2, h3, h4, List.filterMap_append, hsend]
    simpa [hno] using hsrc
  · rw [h1, h2, hst]
    exact h.walking _ hm

/-- One round of the second walk: a sender is created exactly where one is asked for. -/
theorem WalkInv.spawn (h : WalkInv e s b) (hl : LifeInv s) {ifa : Option InAddr}
    {todo : List (Option InAddr)} (o : System.SpawnOutcome)
    (hm : s.main = .spawning (ifa :: todo)) :
    WalkInv e { s.spawnStep ifa o with main := .spawning todo } (b.round s ifa o) := by
  obtain ⟨h1, h2, h3, h4⟩ := round_walk b s ifa o
  obtain ⟨hpat, hids⟩ := h.walking _ hm
  have hplace := hl.place
  rw [hm] at hplace
  obtain ⟨-, -, -, -, slots, hslots, hroom⟩ := hplace
  cases ifa with
  | none => exact h.skip hm rfl rfl rfl rfl
  | some a =>
    by_cases hstart : storedSelect (storedPatterns e b.dupOk) (inetNtop a) = true ∧
        o.taskOk = true ∧ o.createOk = true
    · have hlt : s.statics.threadCount < slots.length := by
        rw [List.countP_cons_of_pos (by rfl)] at hroom
        omega
      have hip : (BroadcastTask.create (inetNtop a) s.statics.globalRedisPort
          s.statics.globalRedisTls).sourceIp = inetNtop a :=
        snprintf_eq (Nat.lt_succ_of_le (inetNtop_length_le a))
      rw [spawnStep_started hslots hlt (hpat ▸ hstart)]
      refine ⟨h.environ, ?_, h.walked_round o hm, ?_, fun _ _ => ?_⟩
      · rw [h4]
        exact h.first.trans (by simp)
      · have hfirst : b.first ≤ (s.senders.map (·.task.sourceIp)).length := by
          rw [List.length_map]
          exact h.first
        rw [h2, h3, h4, List.filterMap_append, List.map_append, List.map_append,
          List.drop_append_of_le_length hfirst, h.sources]
        simp [started_of hstart, Sender.create, hip]
      · rw [h1, h2]
        refine ⟨hpat, ?_⟩
        rw [hslots] at hids
        simpa using hids
    · rcases spawnStep_skipped (s := s) (hpat ▸ hstart) with heq | heq
      · exact h.skip hm (not_started_of hstart) (by rw [heq]) (by rw [heq]) (by rw [heq])
      · exact h.skip hm (not_started_of hstart) (by rw [heq]) (by rw [heq]) (by rw [heq])

/-- A callback that leaves the senders alone and starts no walk. -/
theorem WalkInv.callback (h : WalkInv e s b) (hm : s.main = .idle)
    (hen : s'.cache.environ = s.cache.environ) (hsrc : s'.senders = s.senders)
    (htodo : s'.main.todo = []) (hno : ∀ todo, s'.main ≠ .spawning todo) : WalkInv e s' b :=
  h.still hen (by rw [hsrc]) (by rw [htodo, hm]; rfl) fun todo ht => absurd ht (hno todo)

/-- The cron tick: it starts nothing, or the second walk begins on a table of patterns that was
empty. -/
theorem WalkInv.cron (h : WalkInv e s b) (hi : CacheInv s.cache) (hl : LifeInv s)
    (hm : s.main = .idle) {o : System.StartOutcome} (hst : s.cronBroadcastOnce o = some s') :
    WalkInv e s' (b.after s (.cron o) s') := by
  -- where the main thread stays idle, the book stays as it is
  have hidle : s'.main = .idle → s'.cache.environ = s.cache.environ → s'.senders = s.senders →
      WalkInv e s' (b.after s (.cron o) s') := by
    intro hm' hen hsrc
    simp only [StartBook.after, hm']
    exact h.callback hm hen hsrc (by rw [hm']; rfl) (by simp [hm'])
  rcases cronBroadcastOnce_eq hst with rfl | ⟨hno, -, c', hc, ⟨-, rfl⟩ | ⟨-, rfl⟩⟩
  · exact hidle hm rfl rfl
  · exact hidle hm (hi.environ_step hc) rfl
  · have hen := hi.environ_step hc
    rcases sendUdpMessage_walks { s with
        cache := c'
        statics := { s.statics with announced := true }
        history :=
          { s.history with starts := s.history.starts + 1, cacheStarted := true } } o with
      ⟨-, ids, heq⟩ | ⟨-, ⟨-, heq⟩ | ⟨ifaddr, patterns, hpat, -, heq⟩⟩
    · rw [heq] at hidle ⊢
      exact hidle hm hen rfl
    · rw [heq] at hidle ⊢
      exact hidle hm hen rfl
    · rw [heq]
      refine h.begin hen rfl rfl ?_ rfl
      dsimp only at hpat
      rw [hl.no_patterns hm hno, hen.trans h.environ] at hpat
      exact initIpPatterns_stored hpat

/-- A step of the main thread inside the module. -/
theorem WalkInv.main (h : WalkInv e s b) (hi : CacheInv s.cache) (hl : LifeInv s)
    {o : System.SpawnOutcome} (hst : s.mainStep o = some s') :
    WalkInv e s' (b.after s (.main o) s') := by
  rcases mainStep_eq hst with ⟨hm, rfl⟩ | ⟨ifa, todo, hm, rfl⟩ | ⟨i, caller, s₁, hm, -, hj, rfl⟩ |
    ⟨i, caller, hm, -, rfl⟩ | ⟨caller, c', hm, hc, rfl⟩
  · simp only [StartBook.after, hm]
    exact h.still rfl rfl (by rw [hm]; rfl) (by simp)
  · simp only [StartBook.after, hm]
    exact h.spawn hl o hm
  · simp only [StartBook.after, hm]
    rcases joinStep_eq hj with ⟨rfl, -⟩ | ⟨t, th, -, hth, -, rfl⟩
    · exact h.still rfl rfl (by rw [hm]; rfl) (by simp)
    · exact h.still rfl (List.map_set_of_eq hth rfl) (by rw [hm]; rfl) (by simp)
  · simp only [StartBook.after, hm]
    exact h.still rfl rfl (by rw [hm]; rfl) (by simp)
  · simp only [StartBook.after, hm]
    have hen := hi.environ_step hc
    split
    · cases caller <;> exact h.still hen rfl (by rw [hm]; rfl) (by simp [System.returnTo])
    · exact h.still hen rfl (by rw [hm]) (by simp)

/-- **Every step keeps the senders those of the walk.** -/
theorem WalkInv.move (h : WalkInv e s b) (hi : CacheInv s.cache) (hl : LifeInv s) {a : Act}
    (hmv : Move s a s') : WalkInv e s' (b.after s a s') := by
  have hen := hmv.environ hi
  cases hmv with
  | tick => exact h.aside rfl rfl rfl rfl
  | @refresher a b' c' hb hc ha =>
    have hw : WalkInv e { s with cache := c' } b := h.aside hen rfl rfl rfl
    cases a <;> first | exact ha.elim | exact hw
  | @sender t o th c' th' hth hst =>
    have hsrc := List.map_set_of_eq (f := (·.task.sourceIp)) hth
      (congrArg BroadcastTask.sourceIp hst.fixed.1.2)
    have hw : WalkInv e { s with cache := c', senders := s.senders.set t th' } b :=
      h.aside hen hsrc rfl rfl
    obtain ⟨h1, h2, h3, h4⟩ := freeTask_walk b t
    simp only [StartBook.after]
    split
    · exact hw.book h1 h2 h3 h4
    · exact hw
  | configSet hm => exact h.aside rfl rfl rfl rfl
  | refused hm hbusy => exact h.callback hm rfl rfl rfl (by simp [System.cleanupThreads])
  | curlFails hm hloaded hbusy hcurl =>
    exact h.callback hm rfl rfl (congrArg MainPc.todo hm) (by simp [System.resetForLoad, hm])
  | load hm hloaded hbusy hcurl =>
    exact h.callback hm rfl rfl (congrArg MainPc.todo hm)
      (by simp [System.completeLoad, System.resetForLoad, hm])
  | cron hm hhook hst => exact h.cron hi hl hm hst
  | @cleanup a caller hm hloaded ha =>
    have hw : WalkInv e (s.cleanupThreads caller) b :=
      h.callback hm rfl rfl rfl (by simp [System.cleanupThreads])
    cases a <;> first | exact ha.elim | exact hw
  | main hst => exact h.main hi hl hst

end Walks

/-! ## 3. Every task is freed once -/

section Tasks

variable {s s' : System} {b : StartBook}

/-- The senders that ended are the same. -/
theorem TasksInv.still (h : TasksInv s b)
    (hend : s'.senders.map Sender.ended = s.senders.map Sender.ended) : TasksInv s' b where
  length := by
    have hlen := congrArg List.length hend
    rw [List.length_map, List.length_map] at hlen
    rw [hlen]
    exact h.length
  nodup := h.nodup
  lt := h.lt
  thread := by
    intro t th k hth hk
    have hmap : (s.senders[t]?).map Sender.ended = some th.ended := by
      rw [← List.getElem?_map, ← hend, List.getElem?_map, hth]
      rfl
    obtain ⟨th₀, hth₀, hsame⟩ := Option.map_eq_some_iff.mp hmap
    rw [← hsame]
    exact h.thread t th₀ k hth₀ hk
  creator := h.creator

/-- The walk's columns do not matter for the tasks. -/
theorem TasksInv.book {b' : StartBook} (h : TasksInv s b) (h1 : b'.frees = b.frees)
    (h2 : b'.tasks = b.tasks) : TasksInv s b' := by
  obtain ⟨ha, hb, hc, hd, he⟩ := h
  rw [← h2] at ha hb hc hd he
  rw [← h1] at hc hd he
  exact ⟨ha, hb, hc, hd, he⟩

/-- `pthread_create` failed: the creator frees the task. -/
theorem TasksInv.creatorFrees (h : TasksInv s b)
    (rounds : List (Option InAddr × System.SpawnOutcome)) :
    TasksInv s { b with rounds := rounds, frees := b.frees ++ [1] } where
  length := h.length
  nodup := h.nodup
  lt := by
    intro k hk
    rw [List.length_append]
    exact Nat.lt_add_right _ (h.lt k hk)
  thread := by
    intro t th k hth hk
    have hlt := h.lt k (List.mem_of_getElem? hk)
    rw [List.getElem?_append_left hlt]
    exact h.thread t th k hth hk
  creator := by
    intro k hk hno
    by_cases hlt : k < b.frees.length
    · rw [List.getElem?_append_left hlt]
      exact h.creator k hlt hno
    · rw [List.length_append, List.length_singleton] at hk
      obtain rfl : k = b.frees.length := by omega
      simp

/-- A thread was created: the task is its own. -/
theorem TasksInv.threadOwns (h : TasksInv s b) {th : Sender} (hth : th.ended = false)
    (hs' : s'.senders = s.senders ++ [th])
    {rounds : List (Option InAddr × System.SpawnOutcome)} :
    TasksInv s' { b with
      rounds := rounds, frees := b.frees ++ [0], tasks := b.tasks ++ [b.frees.length] } where
  length := by
    rw [hs', List.length_append, List.length_append, h.length]
    rfl
  nodup := by
    rw [List.nodup_append]
    refine ⟨h.nodup, List.nodup_singleton _, ?_⟩
    intro k hk j hj
    rw [List.mem_singleton.mp hj]
    exact Nat.ne_of_lt (h.lt k hk)
  lt := by
    intro k hk
    rw [List.length_append, List.length_singleton]
    rcases List.mem_append.mp hk with hk | hk
    · exact Nat.lt_succ_of_lt (h.lt k hk)
    · rw [List.mem_singleton.mp hk]
      exact Nat.lt_succ_self _
  thread := by
    intro t u k hu hk
    rw [hs'] at hu
    rcases Nat.lt_or_ge t s.senders.length with hlt | hge
    · rw [List.getElem?_append_left hlt] at hu
      rw [List.getElem?_append_left (h.length.symm ▸ hlt)] at hk
      rw [List.getElem?_append_left (h.lt k (List.mem_of_getElem? hk))]
      exact h.thread t u k hu hk
    · rw [List.getElem?_append_right hge, List.getElem?_singleton] at hu
      rw [List.getElem?_append_right (h.length.symm ▸ hge), List.getElem?_singleton] at hk
      split at hu
      · rw [h.length, if_pos ‹_›] at hk
        rw [← Option.some.inj hu, ← Option.some.inj hk, hth]
        simp
      · exact absurd hu (by simp)
  creator := by
    intro k hk hno
    rw [List.length_append, List.length_singleton] at hk
    rw [List.mem_append, List.mem_singleton, not_or] at hno
    have hlt : k < b.frees.length := by omega
    rw [List.getElem?_append_left hlt]
    exact h.creator k hlt hno.1

/-- The task of a sender that ends is freed: it was not, and no other sender has it. -/
theorem TasksInv.threadFrees (h : TasksInv s b) {t : Nat} {th th' : Sender}
    (hth : s.senders[t]? = some th) (hrun : th.ended = false) (hend : th'.ended = true)
    (hs' : s'.senders = s.senders.set t th') : TasksInv s' (b.freeTask t) := by
  have htlt : t < b.tasks.length := by
    rw [h.length]
    exact (List.getElem?_eq_some_iff.mp hth).1
  obtain ⟨k, hk⟩ : ∃ k, b.tasks[t]? = some k := ⟨_, List.getElem?_eq_getElem htlt⟩
  have h0 : b.frees[k]? = some 0 := by
    have hfree := h.thread t th k hth hk
    rwa [hrun] at hfree
  have hklt := h.lt k (List.mem_of_getElem? hk)
  have heq : b.freeTask t = { b with frees := b.frees.set k 1 } := by
    simp only [StartBook.freeTask, hk, List.getD_eq_getElem?_getD, h0, Option.getD_some,
      Nat.zero_add]
  -- no other sender has the task
  have hother : ∀ (u j : Nat), b.tasks[u]? = some j → u ≠ t → k ≠ j := by
    intro u j hj hne hkj
    exact hne ((List.getElem?_inj htlt h.nodup).mp (hk.trans (hkj ▸ hj.symm))).symm
  rw [heq]
  refine ⟨?_, h.nodup, ?_, ?_, ?_⟩
  · rw [hs', List.length_set]
    exact h.length
  · intro j hj
    rw [List.length_set]
    exact h.lt j hj
  · intro u thu j hu hj
    rw [hs'] at hu
    rcases List.getElem?_set_cases hu with ⟨hne, hu⟩ | ⟨rfl, rfl, -⟩
    · rw [List.getElem?_set_ne (hother u j hj hne)]
      exact h.thread u thu j hu hj
    · rw [← Option.some.inj (hk.symm.trans hj), List.getElem?_set_self hklt, hend]
      rfl
  · intro j hj hno
    rw [List.length_set] at hj
    have hkj : k ≠ j := by
      rintro rfl
      exact hno (List.mem_of_getElem? hk)
    rw [List.getElem?_set_ne hkj]
    exact h.creator j hj hno

/-- One round of the second walk. -/
theorem TasksInv.spawn (h : TasksInv s b) (hl : LifeInv s) {ifa : Option InAddr}
    {todo : List (Option InAddr)} (o : System.SpawnOutcome)
    (hm : s.main = .spawning (ifa :: todo)) :
    TasksInv { s.spawnStep ifa o with main := .spawning todo } (b.round s ifa o) := by
  have hplace := hl.place
  rw [hm] at hplace
  obtain ⟨-, -, -, -, slots, hslots, hroom⟩ := hplace
  -- the round that allocates nothing
  have hskip : b.round s ifa o = { b with rounds := b.rounds ++ [(ifa, o)] } →
      (s.spawnStep ifa o).senders = s.senders →
      TasksInv { s.spawnStep ifa o with main := .spawning todo } (b.round s ifa o) := by
    intro hbook hsend
    rw [hbook]
    have hb : TasksInv s { b with rounds := b.rounds ++ [(ifa, o)] } := h.book rfl rfl
    exact hb.still (congrArg (List.map Sender.ended) hsend)
  by_cases hmatch :
      ifa.bind (fun a => ipMatchesPattern (inetNtop a) s.statics.ipPatterns) = some true
  · obtain ⟨a, rfl, hpat⟩ := Option.bind_eq_some_iff.mp hmatch
    have hstep : s.spawnStep (some a) o = if o.taskOk ∧ o.createOk then s.spawn a else s := by
      simp only [System.spawnStep, hpat]
    by_cases htask : o.taskOk = true
    · by_cases hcreate : o.createOk = true
      · have hlt : s.statics.threadCount < slots.length := by
          rw [List.countP_cons_of_pos (by rfl)] at hroom
          omega
        rw [hstep, if_pos ⟨htask, hcreate⟩, StartBook.round, if_pos ⟨hmatch, htask⟩,
          if_pos hcreate, System.spawn, hslots]
        simp only [if_pos hlt]
        exact h.threadOwns rfl rfl
      · rw [hstep, if_neg fun hand => hcreate hand.2, StartBook.round, if_pos ⟨hmatch, htask⟩,
          if_neg hcreate]
        exact (h.creatorFrees _).still rfl
    · exact hskip (if_neg fun hand => htask hand.2)
        (by rw [hstep, if_neg fun hand => htask hand.1])
  · refine hskip (if_neg fun hand => hmatch hand.1) ?_
    unfold System.spawnStep
    cases ifa with
    | none => rfl
    | some a =>
      dsimp only
      split
      · rfl
      · rfl
      · rename_i hpat
        exact absurd hpat hmatch

/-- **Every step keeps it**: a task goes from its creator to its thread, and is freed by the one
that has it. -/
theorem TasksInv.move (h : TasksInv s b) (hl : LifeInv s) {a : Act} (hmv : Move s a s') :
    TasksInv s' (b.after s a s') := by
  cases hmv with
  | tick => exact h.still rfl
  | @refresher a b' c' hb hc ha =>
    have hw : TasksInv { s with cache := c' } b := h.still rfl
    cases a <;> first | exact ha.elim | exact hw
  | @sender t o th c' th' hth hst =>
    have hrun : th.ended = false := by
      unfold Sender.ended
      split
      · rename_i hpc
        exact absurd hpc hst.fixed.2
      · rfl
    have hlt := (List.getElem?_eq_some_iff.mp hth).1
    simp only [StartBook.after, List.getElem?_set_self hlt, Option.map_some, Option.getD_some]
    split
    · rename_i hend
      exact h.threadFrees hth hrun hend rfl
    · rename_i hend
      exact h.still (List.map_set_of_eq hth ((Bool.eq_false_iff.mpr hend).trans hrun.symm))
  | configSet hm => exact h.still rfl
  | refused hm hbusy => exact h.still rfl
  | curlFails hm hloaded hbusy hcurl => exact h.still rfl
  | load hm hloaded hbusy hcurl => exact h.still rfl
  | @cron o s' hm hhook hst =>
    have hw : TasksInv s' b := h.still (congrArg _ (cronBroadcastOnce_frame hst).1)
    simp only [StartBook.after]
    split
    · exact hw.book rfl rfl
    · exact hw
  | @cleanup a caller hm hloaded ha =>
    have hw : TasksInv (s.cleanupThreads caller) b := h.still rfl
    cases a <;> first | exact ha.elim | exact hw
  | main hst =>
    rcases mainStep_eq hst with ⟨hm, rfl⟩ | ⟨ifa, todo, hm, rfl⟩ | ⟨i, caller, s₁, hm, -, hj, rfl⟩ |
      ⟨i, caller, hm, -, rfl⟩ | ⟨caller, c', hm, -, rfl⟩
    · simp only [StartBook.after, hm]
      exact h.still rfl
    · simp only [StartBook.after, hm]
      exact h.spawn hl _ hm
    · simp only [StartBook.after, hm]
      rcases joinStep_eq hj with ⟨rfl, -⟩ | ⟨t, th, -, hth, -, rfl⟩
      · exact h.still rfl
      · exact h.still (List.map_set_of_eq hth rfl)
    · simp only [StartBook.after, hm]
      exact h.still rfl
    · simp only [StartBook.after, hm]
      split
      · cases caller <;> exact h.still rfl
      · exact h.still rfl

end Tasks

/-! ## 4. What `SELECTED_INTERFACES` says -/

/-- **The interfaces are selected exactly.** -/
structure SelectedExactly (e : Environ) (s : System) (b : StartBook) : Prop where
  defined : s.undefined = false
  /-- no round is left out -/
  walked : b.rounds.map (·.1) ++ s.main.todo = b.ifaddr
  sources : (s.senders.map (·.task.sourceIp)).drop b.first =
    (b.rounds.filterMap (started fun ip => decide (Selected e ip))).map inetNtop
  stored : ∀ todo, s.main = .spawning todo →
    s.statics.ipPatterns = (selectedPatterns e).map some
  /-- the place of `thread_ids` that is written next -/
  inRange : ∀ a todo, s.main = .spawning (some a :: todo) →
    s.statics.threadCount < b.ifaddr.countP (·.isSome)
  /-- in a load that has started nothing yet -/
  gone : s.statics.announced = false → s.cache.closing = false → s.statics.ipPatterns = []

/-- No `NULL` was read, and none is stored. -/
structure Copied (e : Environ) (s : System) (b : StartBook) : Prop where
  defined : s.undefined = false
  copies : storedPatterns e b.dupOk = (selectedPatterns e).map some

section Selection

variable {s s' : System} {b : StartBook} {e : Environ}

theorem storedSelect_copied (e : Environ) :
    storedSelect ((selectedPatterns e).map some) = fun ip => decide (Selected e ip) := by
  funext ip
  unfold storedSelect
  rw [ipMatchesPattern_eq]
  cases decide (Selected e ip) <;> rfl

/-- A step that starts no walk and reads no pattern. -/
theorem Copied.still (h : Copied e s b) {b' : StartBook} (hdef : s'.undefined = s.undefined)
    (hdup : b'.dupOk = b.dupOk) : Copied e s' b' :=
  ⟨hdef.trans h.defined, by rw [hdup]; exact h.copies⟩

/-- The cron tick: where it starts the walk, the copies are made. -/
theorem Copied.cron (h : Copied e s b) (hw : WalkInv e s b) (hi : CacheInv s.cache)
    (hl : LifeInv s) (hm : s.main = .idle) {o : System.StartOutcome}
    (hok : PatternsCopied (s, b) (.cron o)) (hst : s.cronBroadcastOnce o = some s') :
    Copied e s' (b.after s (.cron o) s') := by
  have hidle : s'.main = .idle → s'.undefined = s.undefined →
      Copied e s' (b.after s (.cron o) s') := by
    intro hm' hdef
    simp only [StartBook.after, hm']
    exact h.still hdef rfl
  rcases cronBroadcastOnce_eq hst with rfl | ⟨hno, hcl, c', hc, ⟨-, rfl⟩ | ⟨hstart, rfl⟩⟩
  · exact hidle hm rfl
  · exact hidle hm rfl
  · have hen : c'.environ = e := (hi.environ_step hc).trans hw.environ
    rcases sendUdpMessage_walks { s with
        cache := c'
        statics := { s.statics with announced := true }
        history :=
          { s.history with starts := s.history.starts + 1, cacheStarted := true } } o with
      ⟨-, ids, heq⟩ | ⟨hwalks, ⟨hnone, -⟩ | ⟨ifaddr, patterns, -, -, heq⟩⟩
    · rw [heq] at hidle ⊢
      exact hidle hm rfl
    · have hcopies := hok o rfl ⟨hno, hcl, hstart, hwalks⟩
      dsimp only at hnone hcopies
      rw [hw.environ] at hcopies
      rw [hl.no_patterns hm hno, hen, initIpPatterns_iff.mpr hcopies] at hnone
      exact absurd hnone (by simp)
    · have hcopies := hok o rfl ⟨hno, hcl, hstart, hwalks⟩
      dsimp only at hcopies
      rw [hw.environ] at hcopies
      rw [heq]
      exact ⟨h.defined, hcopies.stored⟩

/-- A round of the second walk reads no `NULL`, and `thread_ids` has a place. -/
theorem Copied.spawn (h : Copied e s b) (hw : WalkInv e s b) (hl : LifeInv s)
    {ifa : Option InAddr} {todo : List (Option InAddr)} (o : System.SpawnOutcome)
    (hm : s.main = .spawning (ifa :: todo)) : (s.spawnStep ifa o).undefined = false := by
  have hplace := hl.place
  rw [hm] at hplace
  obtain ⟨-, -, -, -, slots, hslots, hroom⟩ := hplace
  cases ifa with
  | none => exact h.defined
  | some a =>
    have hlt : s.statics.threadCount < slots.length := by
      rw [List.countP_cons_of_pos (by rfl)] at hroom
      omega
    unfold System.spawnStep
    dsimp only
    rw [(hw.walking _ hm).1, h.copies, ipMatchesPattern_eq]
    cases decide (Selected e (inetNtop a)) with
    | false => exact h.defined
    | true =>
      dsimp only
      split
      · rw [System.spawn, hslots]
        simp only [if_pos hlt]
        exact h.defined
      · exact h.defined

theorem Copied.move (h : Copied e s b) (hw : WalkInv e s b) (hi : CacheInv s.cache)
    (hl : LifeInv s) {a : Act} (hok : PatternsCopied (s, b) a) (hmv : Move s a s') :
    Copied e s' (b.after s a s') := by
  cases hmv with
  | tick => exact h.still rfl rfl
  | refresher hb hc ha =>
    cases a <;> first | exact ha.elim | exact h.still rfl rfl
  | @sender t o th c' th' hth hst =>
    simp only [StartBook.after]
    split
    · exact h.still rfl (freeTask_walk b t).2.1
    · exact h.still rfl rfl
  | configSet hm => exact h.still rfl rfl
  | refused hm hbusy => exact h.still rfl rfl
  | curlFails hm hloaded hbusy hcurl => exact h.still rfl rfl
  | load hm hloaded hbusy hcurl => exact h.still rfl rfl
  | cron hm hhook hst => exact h.cron hw hi hl hm hok hst
  | cleanup hm hloaded ha =>
    cases a <;> first | exact ha.elim | exact h.still rfl rfl
  | main hst =>
    rcases mainStep_eq hst with ⟨hm, rfl⟩ | ⟨ifa, todo, hm, rfl⟩ |
      ⟨i, caller, s₁, hm, hlt, hj, rfl⟩ | ⟨i, caller, hm, -, rfl⟩ | ⟨caller, c', hm, -, rfl⟩
    · simp only [StartBook.after, hm]
      exact h.still rfl rfl
    · simp only [StartBook.after, hm]
      exact ⟨h.spawn hw hl _ hm, by rw [(round_walk b s ifa _).2.1]; exact h.copies⟩
    · simp only [StartBook.after, hm]
      rcases joinStep_eq hj with ⟨-, hnone⟩ | ⟨t, th, -, -, -, rfl⟩
      · -- the slot names a sender
        have hle := hl.count_le
        exact absurd (hnone _ (hl.slots i hlt))
          (by rw [List.getElem?_eq_getElem (by omega)]; simp)
      · exact h.still rfl rfl
    · simp only [StartBook.after, hm]
      exact h.still rfl rfl
    · simp only [StartBook.after, hm]
      split
      · cases caller <;> exact h.still rfl rfl
      · exact h.still rfl rfl

/-- What holds in every state of a run, with the book. -/
theorem bookStep_invariant {e : Environ} {clock : Int} {config : Config}
    {ok : System × StartBook → Act → Prop}
    (hr : Lts.Run System.bookStep ok (System.init e clock config, .empty) (s, b)) :
    s.Reachable ∧ WalkInv e s b ∧ TasksInv s b := by
  refine hr.invariant (I := fun x => x.1.Reachable ∧ WalkInv e x.1 x.2 ∧ TasksInv x.1 x.2) ?_ ?_
  · refine ⟨Lts.Reachable.of_init ⟨e, clock, config, rfl⟩, ⟨rfl, Nat.le_refl _, rfl, rfl, ?_⟩,
      ⟨rfl, List.nodup_nil, ?_, ?_, ?_⟩⟩
    all_goals simp [System.init, StartBook.empty]
  · rintro ⟨t, d⟩ a x ⟨ht, hw, hk⟩ - hst
    obtain ⟨u, hu, rfl⟩ := Option.map_eq_some_iff.mp hst
    have hmv := System.move_of_step hu
    exact ⟨ht.next hu, hw.move ht.cache.inv ht.life hmv, hk.move ht.life hmv⟩

theorem copied_run {e : Environ} {clock : Int} {config : Config}
    (hr : Lts.Run System.bookStep PatternsCopied (System.init e clock config, .empty) (s, b)) :
    Copied e s b := by
  have hstart : Lts.Run System.bookStep Lts.free (System.init e clock config, .empty)
      (System.init e clock config, .empty) := Relation.ReflTransGen.refl
  have hall : (s.Reachable ∧ WalkInv e s b) ∧ Copied e s b := by
    refine hr.invariant (I := fun x => (x.1.Reachable ∧ WalkInv e x.1 x.2) ∧ Copied e x.1 x.2)
      ⟨⟨Lts.Reachable.of_init ⟨e, clock, config, rfl⟩, ?_⟩, rfl, ?_⟩ ?_
    · exact (bookStep_invariant hstart).2.1
    · exact storedPatterns_eq_iff.mpr fun _ _ => rfl
    · rintro ⟨t, d⟩ a x ⟨⟨ht, hw⟩, hc⟩ hok hst
      obtain ⟨u, hu, rfl⟩ := Option.map_eq_some_iff.mp hst
      have hmv := System.move_of_step hu
      exact ⟨⟨ht.next hu, hw.move ht.cache.inv ht.life hmv⟩,
        hc.move hw ht.cache.inv ht.life hok hmv⟩
  exact hall.2

/-- **The interfaces are those `SELECTED_INTERFACES` selects**, as long as the copies of its
patterns are made, on every load of every run.  `init_ip_patterns` stays inside its copy
whatever fails; it stores the patterns exactly when no `strdup` fails. -/
theorem interfaces_selected (e : Environ) :
    (∀ copyOk dupOk, initIpPatternsAt e copyOk dupOk [] = some ((selectedPatterns e).map some) ↔
      CopiesOk e copyOk dupOk) ∧
    (∀ dupOk patterns, (initIpPatternsAt e true dupOk patterns).isSome = true) ∧
    (∀ ip, ipMatchesPattern ip ((selectedPatterns e).map some) =
      some (decide (Selected e ip))) ∧
    ∀ (clock : Int) (config : Config) (s : System) (b : StartBook),
      Lts.Run System.bookStep PatternsCopied (System.init e clock config, .empty) (s, b) →
        SelectedExactly e s b ∧ TasksInv s b := by
  refine ⟨fun copyOk dupOk => ?_, fun dupOk patterns => ?_, ipMatchesPattern_eq e,
    fun clock config s b hr => ?_⟩
  · rw [initIpPatternsAt_eq]
    exact initIpPatterns_iff
  · rw [initIpPatternsAt_eq]
    unfold initIpPatterns
    split <;> rfl
  · obtain ⟨hreach, hw, hk⟩ := bookStep_invariant hr
    have hc := copied_run hr
    have hl := hreach.life
    refine ⟨⟨hc.defined, hw.walked, ?_, fun todo hm => ?_, fun a todo hm => ?_, fun hno hcl => ?_⟩,
      hk⟩
    · have hsrc := hw.sources
      rwa [hc.copies, storedSelect_copied] at hsrc
    · exact (hw.walking todo hm).1.trans hc.copies
    · have hids := (hw.walking _ hm).2
      have hplace := hl.place
      rw [hm] at hplace
      obtain ⟨-, -, -, -, slots, hslots, hroom⟩ := hplace
      rw [hslots, Option.map_some, Option.some.injEq] at hids
      rw [List.countP_cons_of_pos (by rfl)] at hroom
      omega
    · have hplace := hl.place
      cases hm : s.main with
      | idle => exact hl.no_patterns hm hno
      | spawning todo =>
        rw [hm] at hplace
        exact absurd (hplace.2.1.2.1.symm.trans hno) (by simp)
      | joining i caller =>
        rw [hm] at hplace
        exact absurd (hplace.2.1.symm.trans hcl) (by simp)
      | stopping caller =>
        rw [hm] at hplace
        exact absurd (hplace.1.symm.trans hcl) (by simp)

/-- An environment with this `SELECTED_INTERFACES`. -/
def selecting (patterns : CString) : Environ := { selectedInterfaces := some patterns }

/-- The first cron tick, with these interfaces. -/
def startWith (ifaddr : List (Option InAddr)) (dupOk : Nat → Bool) : List Act :=
  [plainLoad, .cron ⟨true, true, some ifaddr, true, true, dupOk⟩]

/-- What runs, and the frees of the tasks. -/
def bookView (x : System × StartBook) : List Text × List Nat :=
  (x.1.senders.map (·.task.sourceIp), x.2.frees)

/-- No copy fails. -/
def copiesMade (_ : System × StartBook) (a : Act) : Bool :=
  match a with
  | .cron o => o.copyOk && (List.range maxIpPatterns).all o.dupOk
  | _ => true

theorem patternsCopied_of_made (x : System × StartBook) (a : Act) (h : copiesMade x a = true) :
    PatternsCopied x a := by
  rintro o rfl -
  have hand := Bool.and_eq_true_iff.mp h
  refine Or.inr ⟨hand.1, fun i hi => List.all_eq_true.mp hand.2 i (List.mem_range.mpr ?_)⟩
  refine Nat.lt_of_lt_of_le hi ?_
  unfold selectedPatterns
  split
  · exact Nat.zero_le _
  · exact List.length_take_le _ _

/-- Of three interfaces with an address one is not selected, and of one the thread cannot be
created. -/
theorem interfaces_selected_twoPatterns :
    let e := selecting ⟨ascii "10.,  , 192.168. ", by decide⟩
    ∃ s b, SelectedExactly e s b ∧ TasksInv s b ∧
      s.senders.map (·.task.sourceIp) = [ascii "192.168.0.1"] ∧ b.frees = [1, 0] := by
  intro e
  have hview : (Lts.execIf System.bookStep copiesMade
      (System.init e 0 (portsConfig (ascii "6379") (ascii "0")), .empty)
      (startWith [some ⟨10, 0, 0, 1⟩, none, some ⟨172, 16, 0, 1⟩, some ⟨192, 168, 0, 1⟩]
          (fun _ => true)
        ++ [.main ⟨true, false⟩, mainOk, mainOk, mainOk])).map bookView =
      some ([ascii "192.168.0.1"], [1, 0]) := by decide +kernel
  obtain ⟨⟨s, b⟩, hs, hbook⟩ := Option.map_eq_some_iff.mp hview
  obtain ⟨hsel, htasks⟩ := (interfaces_selected e).2.2.2 _ _ s b
    (Lts.run_of_execIf patternsCopied_of_made hs)
  exact ⟨s, b, hsel, htasks, (Prod.mk.inj hbook).1, (Prod.mk.inj hbook).2⟩

/-- The `strdup` of the one pattern fails: a `NULL` is stored, and the first address is compared
with it. -/
theorem interfaces_selected_noCopy :
    let e := selecting ⟨ascii "10", by decide⟩
    initIpPatternsAt e true (fun _ => false) [] = some [none] ∧
      selectedPatterns e = [ascii "10"] ∧
      ∃ s b, Lts.Run System.bookStep Lts.free
          (System.init e 0 (portsConfig (ascii "6379") (ascii "0")), .empty) (s, b) ∧
        ¬ SelectedExactly e s b := by
  intro e
  refine ⟨rfl, by decide +kernel, ?_⟩
  have hview : (Lts.exec System.bookStep
      (System.init e 0 (portsConfig (ascii "6379") (ascii "0")), .empty)
      (startWith [some ⟨10, 0, 0, 1⟩] (fun _ => false) ++ [mainOk])).map (·.1.undefined) =
      some true := rfl
  obtain ⟨⟨s, b⟩, hs, hundef⟩ := Option.map_eq_some_iff.mp hview
  refine ⟨s, b, Lts.run_of_exec hs, fun hsel => ?_⟩
  rw [hsel.defined] at hundef
  exact absurd hundef (by simp)

end Selection

/-! ## 5. The addresses the server is bound to

`send_udp_message` reads neither `redis_bind_ips` nor `allow_all_interfaces`, so what is announced
agrees with `bind` exactly when the interfaces that are selected do. -/

/-- The directive names the address, or all of them. -/
def BindNames (bind ip : Text) : Prop :=
  ∃ token ∈ strtok 32 bind, token = ascii "0.0.0.0" ∨ token = ascii "*" ∨ token = ip

instance (bind ip : Text) : Decidable (BindNames bind ip) :=
  inferInstanceAs (Decidable (∃ token ∈ strtok 32 bind, _))

section Bound

variable {s : System} {b : StartBook}

/-- **Every sender of the walk is on an address the server listens on exactly when** every
interface of the rounds that is selected, and whose task and thread are made, is one. -/
theorem started_listening_iff (e : Environ) (clock : Int) (config : Config)
    (hr : Lts.Run System.bookStep Lts.free (System.init e clock config, .empty) (s, b))
    (bind : Text) :
    (∀ th ∈ s.senders.drop b.first, BindNames bind th.task.sourceIp) ↔
      ∀ a o, (some a, o) ∈ b.rounds →
        ipMatchesPattern (inetNtop a) (storedPatterns e b.dupOk) = some true →
        o.taskOk = true → o.createOk = true → BindNames bind (inetNtop a) := by
  have hsrc := (bookStep_invariant hr).2.1.sources
  have hall : (∀ th ∈ s.senders.drop b.first, BindNames bind th.task.sourceIp) ↔
      ∀ ip ∈ (s.senders.map (·.task.sourceIp)).drop b.first, BindNames bind ip := by
    rw [← List.map_drop, List.forall_mem_map]
  rw [hall, hsrc, List.forall_mem_map]
  constructor
  · intro h a o hm hsel htask hcreate
    refine h a (List.mem_filterMap.mpr ⟨_, hm, ?_⟩)
    simp [started, storedSelect, hsel, htask, hcreate]
  · intro h a ha
    obtain ⟨⟨ifa, o⟩, hm, hst⟩ := List.mem_filterMap.mp ha
    obtain ⟨rfl, hand⟩ := Option.filter_eq_some_iff.mp hst
    simp only [storedSelect, Bool.and_eq_true, beq_iff_eq] at hand
    exact h a o hm hand.1.1 hand.1.2 hand.2

/-- A plaintext server with this `bind`. -/
def boundTo (bind : Text) : Config :=
  { portsConfig (ascii "6379") (ascii "0") with bind := .string bind }

/-- The one interface is among the addresses of `bind`. -/
theorem started_listening_tenNet :
    ∃ (s : System) (b : StartBook),
      s.history.loadConfig.bind = .string (ascii "127.0.0.1 10.0.0.1") ∧
      s.senders.map (·.task.sourceIp) = [ascii "10.0.0.1"] ∧
      ∀ th ∈ s.senders.drop b.first,
        BindNames (ascii "127.0.0.1 10.0.0.1") th.task.sourceIp := by
  have hview : (Lts.exec System.bookStep
      (System.init {} 0 (boundTo (ascii "127.0.0.1 10.0.0.1")), .empty)
      (startWith [some ⟨10, 0, 0, 1⟩] (fun _ => true) ++ [mainOk, mainOk])).map
        (fun x => (x.1.history.loadConfig.bind, x.1.senders.map (·.task.sourceIp),
          x.2.rounds.map (·.1))) =
      some (.string (ascii "127.0.0.1 10.0.0.1"), [ascii "10.0.0.1"], [some ⟨10, 0, 0, 1⟩]) := rfl
  obtain ⟨⟨s, b⟩, hs, hbook⟩ := Option.map_eq_some_iff.mp hview
  obtain ⟨hbind, hrest⟩ := Prod.mk.inj hbook
  obtain ⟨hsrc, hrounds⟩ := Prod.mk.inj hrest
  refine ⟨s, b, hbind, hsrc, (started_listening_iff _ _ _ (Lts.run_of_exec hs) _).mpr ?_⟩
  intro a o hm _ _ _
  have ha : some a ∈ b.rounds.map (·.1) := List.mem_map_of_mem hm
  rw [hrounds, List.mem_singleton] at ha
  rw [Option.some.inj ha]
  decide +kernel

/-- `bind 127.0.0.1`, and the one interface is 10.0.0.1: it is announced all the same. -/
theorem started_not_listening :
    ∃ (s : System) (b : StartBook), Lts.Run System.bookStep Lts.free
        (System.init {} 0 (boundTo (ascii "127.0.0.1")), .empty) (s, b) ∧
      s.history.loadConfig.bind = .string (ascii "127.0.0.1") ∧
      ∃ th ∈ s.senders.drop b.first, ¬ BindNames (ascii "127.0.0.1") th.task.sourceIp := by
  have hview : (Lts.exec System.bookStep
      (System.init {} 0 (boundTo (ascii "127.0.0.1")), .empty)
      (startWith [some ⟨10, 0, 0, 1⟩] (fun _ => true) ++ [mainOk])).map
        (fun x => (x.1.history.loadConfig.bind,
          (x.1.senders.drop x.2.first).map (·.task.sourceIp))) =
      some (.string (ascii "127.0.0.1"), [ascii "10.0.0.1"]) := rfl
  obtain ⟨⟨s, b⟩, hs, hbook⟩ := Option.map_eq_some_iff.mp hview
  obtain ⟨hbind, hsrc⟩ := Prod.mk.inj hbook
  obtain ⟨th, hth, hip⟩ := List.map_eq_singleton_iff.mp hsrc
  refine ⟨s, b, Lts.run_of_exec hs, hbind, th, ?_, ?_⟩
  · have hmem : th ∈ [th] := List.mem_singleton_self th
    rwa [← hth] at hmem
  · rw [hip]
    decide +kernel

end Bound

end Unicaster
