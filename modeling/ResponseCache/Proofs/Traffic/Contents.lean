import ResponseCache.Proofs.Run.Served
import ResponseCache.Proofs.Store.View
import ResponseCache.Proofs.Traffic.Basic

/-!
# What overlapping sends leave

Sends that overlap share nothing but the storage, and they touch it only in single steps. Over a
memory store from which nothing has to go, each write stands until the next one under its key, so
the contents are those that the writes give in their order (`contents`), and a lookup finds what the
last write before it has put there. The invariant is `Faithful`. It is kept as long as no eviction
is counted; without time limits nothing expires either.
-/

namespace ResponseCache

/-- What a write leaves in a store of tag `origin` that keeps entries without a time limit. -/
def Write.item (origin : String) (x : Write) : Item :=
  ⟨Key.ofRequest x.request,
    Entry.ofResponse x.request.method x.request.uri.text x.now x.response origin, none⟩

namespace Traffic

variable {ι : Type}

namespace Act

/-- The write that an act is, if it is a successful one. -/
def write? : Act → Option Write
  | .settled r p now ⟨_, .stored e⟩ _ => some ⟨r, p, now, e⟩
  | _ => none

end Act

/-- The writes of a history with the sends that made them, newest first. -/
def writes (history : List (ι × Act)) : List (ι × Write) :=
  history.filterMap fun x => x.2.write?.map fun write => (x.1, write)

/-- The last of some writes under a key. -/
def lastWrite? (writes : List (ι × Write)) (key : Key) : Option (ι × Write) :=
  writes.find? fun x => Key.ofRequest x.2.request = key

/-- What some writes leave under each key, the newest of them first. -/
def contents (origin : String) (writes : List (ι × Write)) (key : Key) : Option Item :=
  (lastWrite? writes key).map fun x => x.2.item origin

variable {history : List (ι × Act)} {i : ι} {act : Act} {x : Write} {origin : String} {key : Key}

theorem writes_cons_of_none (h : act.write? = none) :
    writes ((i, act) :: history) = writes history := by
  simp [writes, h]

theorem writes_cons_of_some (h : act.write? = some x) :
    writes ((i, act) :: history) = (i, x) :: writes history := by
  simp [writes, h]

theorem contents_cons :
    contents origin ((i, x) :: writes history) key
      = if key = Key.ofRequest x.request then some (x.item origin)
        else contents origin (writes history) key := by
  by_cases hkey : key = Key.ofRequest x.request
  · simp [contents, lastWrite?, hkey]
  · simp [contents, lastWrite?, hkey, Ne.symm hkey]

/-- A send of `r` was answered with `q` by what the last write before has put under its key. -/
def Hit (origin : String) (r : Request) (q : Response) (earlier : List (ι × Act)) : Prop :=
  ∃ j x p, lastWrite? (writes earlier) (Key.ofRequest r) = some (j, x)
    ∧ (x.item origin).entry.response r.method = .ok p
    ∧ p.marked? x.now origin = some q

/-- A send of `r` crashed at what the last write before has put under its key: the headers of that
response leave no room for the markers. -/
def Crash (r : Request) (earlier : List (ι × Act)) : Prop :=
  ∃ j x, lastWrite? (writes earlier) (Key.ofRequest r) = some (j, x)
    ∧ HeaderField.capacity ≤ x.response.headers.dressedLength

/-- The act of a send of `r` is due to the last write before it, if it is an answer from the storage
or a crash. -/
structure Due (origin : String) (r : Request) (act : Act) (earlier : List (ι × Act)) : Prop where
  hit : ∀ event q, act = .looked event (some q) → Hit origin r q earlier
  crash : act = .crashed → Crash r earlier

theorem Due.of_ne {r : Request} (hlooked : ∀ event q, act ≠ .looked event (some q))
    (hcrashed : act ≠ .crashed) : Due origin r act history :=
  ⟨fun event q hact => absurd hact (hlooked event q), fun hact => absurd hact hcrashed⟩

/-- Every answer from the storage and every crash is due to the last write before it. -/
def Recalls (origin : String) (request : ι → Request) (history : List (ι × Act)) : Prop :=
  ∀ later earlier i act, history = later ++ (i, act) :: earlier →
    Due origin (request i) act earlier

theorem Recalls.cons {request : ι → Request} (h : Recalls origin request history)
    (hdue : Due origin (request i) act history) :
    Recalls origin request ((i, act) :: history) := by
  intro later earlier j act' heq
  cases later with
  | nil =>
    obtain ⟨⟨rfl, rfl⟩, rfl⟩ : (i = j ∧ act = act') ∧ history = earlier := by simpa using heq
    exact hdue
  | cons x later => exact h later earlier j act' (List.cons.inj heq).2

/-- The store holds what the writes have put there, and answers by it. -/
structure Faithful (origin : String) (request : ι → Request) (u : Traffic ι Store) : Prop where
  origin_eq : u.storage.origin = origin
  lasting : u.storage.Lasting
  view_eq : u.storage.view = contents origin (writes u.history)
  recalls : Recalls origin request u.history

variable [DecidableEq ι] {request : ι → Request} {u : Traffic ι Store} {c : Config} {t : Turn ι}
  {own now : Instant} {q : Response}

omit [DecidableEq ι] in
/-- The entry that a faithful store gives to a lookup is that of the last write under the key. -/
theorem Faithful.lastWrite_of_get (h : Faithful origin request u) {r : Request} {entry : Entry}
    (hget : ((Store.backendAt own).get u.storage (Key.ofRequest r) now).1 = .ok entry) :
    ∃ y, lastWrite? (writes u.history) (Key.ofRequest r) = some y
      ∧ (y.2.item origin).entry = entry := by
  have hlookup : (u.storage.lookup (Key.ofRequest r) own).1 = .ok entry := hget
  rw [Store.lookup_fst, h.view_eq] at hlookup
  cases hlast : lastWrite? (writes u.history) (Key.ofRequest r) with
  | none =>
    rw [contents, hlast] at hlookup
    cases hlookup
  | some y =>
    rw [contents, hlast] at hlookup
    exact ⟨y, rfl, Except.ok.inj hlookup⟩

omit [DecidableEq ι] in
/-- What a lookup comes to in a faithful store is due to the last write under its key. -/
theorem Faithful.due_start (h : Faithful origin request u) :
    Due origin (request i) (.ofFinding (Key.ofRequest (request i))
      (Cache.start (Store.backendAt own) c u.storage (request i) now).finding) u.history := by
  cases hfinding : (Cache.start (Store.backendAt own) c u.storage (request i) now).finding with
  | serve tag q e =>
    obtain ⟨-, horigin, entry, hget, hconsider⟩ := Cache.start_eq_serve_iff.1 hfinding
    obtain ⟨-, p, w, hserved, hmarked, -⟩ := Cache.consider_eq_serve_iff.1 hconsider
    obtain ⟨y, hlast, rfl⟩ := h.lastWrite_of_get hget
    have htag : (u.storage.lookup (Key.ofRequest (request i)) own).2.origin = tag := horigin
    rw [Store.origin_lookup, h.origin_eq] at htag
    subst htag
    refine ⟨fun event q' hact => ?_, fun hact => by cases hact⟩
    rw [Act.ofFinding, Act.looked.injEq, Option.some.injEq] at hact
    obtain ⟨-, rfl⟩ := hact
    exact ⟨y.1, y.2, p, hlast, hserved.decodes, hmarked⟩
  | pass event => exact .of_ne (by rintro _ _ ⟨⟩) (by rintro ⟨⟩)
  | crash =>
    obtain ⟨-, entry, hget, hfull⟩ := Cache.start_eq_crash_iff.1 hfinding
    obtain ⟨y, hlast, rfl⟩ := h.lastWrite_of_get hget
    refine ⟨fun event q hact => ?_, fun _ => ⟨y.1, y.2, hlast, hfull.capacity_le rfl⟩⟩
    cases hact

omit [DecidableEq ι] in
theorem Faithful.rest (h : Faithful origin request u) {stage : ι → Stage} (hact : act.write? = none)
    (hdue : Due origin (request i) act u.history) :
    Faithful origin request ⟨u.storage, stage, (i, act) :: u.history⟩ := by
  refine ⟨h.origin_eq, h.lasting, ?_, h.recalls.cons hdue⟩
  rw [writes_cons_of_none hact]
  exact h.view_eq

omit [DecidableEq ι] in
/-- What is written last stands under its key. -/
theorem Faithful.write (h : Faithful origin request u) {stage : ι → Stage}
    (hact : act.write? = some x) (hdue : Due origin (request i) act u.history)
    (hlasting : ((u.storage.remove (x.item origin).key).link (x.item origin).key
      (x.item origin).entry none).Lasting) :
    Faithful origin request ⟨(u.storage.remove (x.item origin).key).link (x.item origin).key
      (x.item origin).entry none, stage, (i, act) :: u.history⟩ := by
  refine ⟨Store.origin_remove.trans h.origin_eq, hlasting, ?_, h.recalls.cons hdue⟩
  funext key
  rw [writes_cons_of_some hact, contents_cons, ← h.view_eq]
  exact Store.view_link_remove

/-- A turn leaves the store faithful, unless something has to go. -/
theorem Faithful.step (h : Faithful origin request u) (httl : c.entryTtl = .zero)
    (hevictions : (u.step Store.backendAt c request t).storage.evictions
      = u.storage.evictions) :
    Faithful origin request (u.step Store.backendAt c request t) := by
  cases hstage : u.stage t.name with
  | idle =>
    have hstorage : (Cache.start (Store.backendAt t.storageNow) c u.storage (request t.name)
        t.now).storage = if Cache.looksUp c (request t.name)
          then (u.storage.lookup (Key.ofRequest (request t.name)) t.storageNow).2
          else u.storage := Cache.start_storage
    have hnone : ∀ finding, (Act.ofFinding (Key.ofRequest (request t.name)) finding).write?
        = none := fun finding => by
      cases finding <;> rfl
    rw [step_of_idle hstage]
    refine ⟨?_, ?_, ?_, h.recalls.cons h.due_start⟩
    · dsimp only
      rw [hstorage]
      split
      · exact Store.origin_lookup.trans h.origin_eq
      · exact h.origin_eq
    · dsimp only
      rw [hstorage]
      split
      · exact h.lasting.lookup _ _
      · exact h.lasting
    · dsimp only
      rw [writes_cons_of_none (hnone _), ← h.view_eq, hstorage]
      split
      · exact h.lasting.view_lookup_eq _ _
      · rfl
  | passed =>
    rw [step_of_passed hstage]
    exact h.rest rfl (.of_ne (by rintro _ _ ⟨⟩) (by rintro ⟨⟩))
  | fetched p =>
    rw [step_of_fetched hstage] at hevictions ⊢
    have hdue : ∀ event records, Due origin (request t.name)
        (.settled (request t.name) p t.now event records) u.history :=
      fun event records => .of_ne (by rintro _ _ ⟨⟩) (by rintro ⟨⟩)
    obtain ⟨w, e, -, -, hok, hsettle⟩ | ⟨failure, herror, hsettle⟩ | ⟨event, hskip, hsettle⟩ :=
      Cache.settle_cases (Store.backendAt t.storageNow) c u.storage (request t.name) t.now p
    · rw [hsettle] at hevictions ⊢
      simp only [Cache.offer, Store.backendAt, Store.backend, httl] at hok hevictions ⊢
      obtain ⟨hstore, hlasting⟩ := h.lasting.insert hok hevictions
      rw [h.origin_eq] at hstore hlasting ⊢
      rw [hstore]
      exact h.write (x := ⟨request t.name, p, t.now, e⟩) rfl (hdue _ _) hlasting
    · -- a refused write leaves the store as it was
      have hsame : (Cache.offer (Store.backendAt t.storageNow) c u.storage (request t.name) t.now
        p).state = u.storage := Store.insert_of_error herror
      rw [hsettle]
      dsimp only
      rw [hsame]
      exact h.rest rfl (hdue _ _)
    · rw [hsettle]
      refine h.rest ?_ (hdue _ _)
      rcases hskip with ⟨cause, rfl⟩ | ⟨fault, rfl⟩ <;> rfl
  | done result =>
    rw [step_of_done hstage]
    exact h
  | crashed =>
    rw [step_of_crashed hstage]
    exact h

/-! ## Runs -/

/-- Sends at a cache over a memory store that was empty, after some turns. -/
def ofTurns (c : Config) (request : ι → Request) (limits : Limits) (origin : String)
    (turns : List (Turn ι)) : Traffic ι Store :=
  (fresh (Store.empty limits origin)).after Store.backendAt c request turns

/-- The store counts no eviction at any point of a run. -/
def Roomy (c : Config) (request : ι → Request) (limits : Limits) (origin : String)
    (turns : List (Turn ι)) : Prop :=
  ∀ done, done <+: turns → (ofTurns c request limits origin done).storage.evictions = 0

theorem ofTurns_concat (limits : Limits) (turns : List (Turn ι)) :
    ofTurns c request limits origin (turns ++ [t])
      = (ofTurns c request limits origin turns).step Store.backendAt c request t := by
  rw [ofTurns, after, List.foldl_append]
  rfl

theorem faithful_ofTurns (request : ι → Request) (limits : Limits) (origin : String)
    (turns : List (Turn ι)) (httl : c.entryTtl = .zero)
    (hroom : Roomy c request limits origin turns) :
    Faithful origin request (ofTurns c request limits origin turns) := by
  induction turns using List.reverseRecOn with
  | nil =>
    refine ⟨rfl, .empty limits origin, rfl, ?_⟩
    intro later earlier i act heq
    cases later <;> cases heq
  | append_singleton turns t ih =>
    have hbefore := ih fun done hdone => hroom done (hdone.trans (List.prefix_append ..))
    have hzero := hroom turns (List.prefix_append ..)
    have hlast := hroom _ (List.prefix_refl _)
    rw [ofTurns_concat] at hlast ⊢
    exact hbefore.step httl (hlast.trans hzero.symm)

omit [DecidableEq ι] in
theorem mem_writes {history : List (ι × Act)} :
    (i, x) ∈ writes history ↔ ∃ act, (i, act) ∈ history ∧ act.write? = some x := by
  rw [writes, List.mem_filterMap]
  constructor
  · rintro ⟨⟨j, act⟩, hmem, hwrite⟩
    obtain ⟨y, hact, heq⟩ := Option.map_eq_some_iff.1 hwrite
    cases heq
    exact ⟨act, hmem, hact⟩
  · rintro ⟨act, hmem, hact⟩
    exact ⟨(i, act), hmem, by rw [hact, Option.map_some]⟩

section Course

variable {r : Request} {stage : Stage} {acts : List Act} {result : Except (Halt Failure) Response}

/-- A send that has given its result was answered from the storage, or its one call of the origin
has given the result. -/
theorem Course.done (h : Course r (.done result) acts) :
    (∃ event q, acts = [.looked event (some q)] ∧ result = .ok q)
      ∨ acts.reverse.filterMap Act.fetch? = [(r, result)]
        ∧ ∀ event q, .looked event (some q) ∉ acts := by
  cases h with
  | hit => exact .inl ⟨_, _, rfl, rfl⟩
  | failed => exact .inr ⟨rfl, by simp⟩
  | settled => exact .inr ⟨rfl, by simp⟩

/-- A send that has crashed has done nothing else. -/
theorem Course.crashed_eq (h : Course r .crashed acts) : acts = [.crashed] := by
  cases h
  rfl

/-- What a send writes is the response that its own call of the origin has given. -/
theorem Course.write (h : Course r stage acts) (hmem : act ∈ acts) (hact : act.write? = some x) :
    x.request = r ∧ acts.reverse.filterMap Act.fetch? = [(r, .ok x.response)] := by
  have hother : ∀ event answer, act ≠ .looked event answer := by
    rintro event answer rfl
    cases hact
  have hfetch : ∀ r' reply, act ≠ .fetched r' reply := by
    rintro r' reply rfl
    cases hact
  have hcrash : act ≠ .crashed := by
    rintro rfl
    cases hact
  cases h with
  | settled hopening hclosing =>
    rcases List.mem_cons.1 hmem with rfl | hmem
    · obtain ⟨e, rfl⟩ | ⟨failure, rfl⟩ | ⟨cause, rfl⟩ | ⟨fault, rfl⟩ := hclosing
      · obtain rfl := Option.some.inj hact
        exact ⟨rfl, rfl⟩
      all_goals cases hact
    · simp [hother, hfetch] at hmem
  | _ => simp [hother, hfetch, hcrash] at hmem

end Course

end Traffic

/-- Three sends of one request, of which the first two overlap and the third one comes later. -/
def Sample.crossing : List (Traffic.Turn (Fin 3)) :=
  [0, 1, 0, 1, 1, 0, 2].map fun i => ⟨i, .epoch, .epoch, .ok Sample.response⟩

namespace Traffic

end Traffic

end ResponseCache
