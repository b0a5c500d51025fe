import ResponseCache.Proofs.Json.Float
import ResponseCache.Proofs.Json.Text
import ResponseCache.Proofs.Store.Refusal

/-!
# A configuration comes back from JSON

JSON counts lengths of time in whole seconds. Each choice of a configuration is written as a member
from which it is set again, in whole seconds where it is a length of time (`exists_member`), so the
whole object is read as the configuration in whole seconds (`read?_toJson`). A time to live of a
second or more stays one, and the deadlines that it sets come no later
(`Store.exists_deadline_ofSeconds_le`); one of less than a second is lost, and with it every
deadline.
-/

namespace ResponseCache.Config

variable {c base : Config} {f : Field}

/-! ## In whole seconds -/

theorem ofSeconds_seconds_iff {d : Duration} : .ofSeconds d.seconds = d ↔ d.nanos = 0 := by
  obtain ⟨seconds, nanos, _⟩ := d
  simp [Duration.ofSeconds, eq_comm]

theorem ofSeconds_ne_zero {seconds : UInt64} (h : 1 ≤ seconds) :
    Duration.ofSeconds seconds ≠ .zero := by
  intro hzero
  obtain rfl : seconds = 0 := congrArg Duration.seconds hzero
  exact absurd h (by decide)

/-- The configuration with its lengths of time cut to whole seconds. -/
def inSeconds (c : Config) : Config :=
  { c with
    entryTtl := .ofSeconds c.entryTtl.seconds
    heuristicCap := .ofSeconds c.heuristicCap.seconds }

/-- The configuration with one choice as it is in `c`, cut to whole seconds. -/
def adopt (base c : Config) : Field → Config
  | .shared => { base with shared := c.shared }
  | .lookupPolicy => { base with lookupPolicy := c.lookupPolicy }
  | .entryTtl => { base with entryTtl := c.inSeconds.entryTtl }
  | .heuristicFraction => { base with heuristicFraction := c.heuristicFraction }
  | .heuristicCap => { base with heuristicCap := c.inSeconds.heuristicCap }

/-- With every choice adopted nothing of the other configuration is left. -/
theorem foldl_adopt (base c : Config) :
    Field.all.foldl (fun base f => base.adopt c f) base = c.inSeconds :=
  rfl

/-! ## One choice -/

theorem isPlain_name (f : Field) : ∀ c ∈ f.name.toList, Json.Token.IsPlain c :=
  Json.Token.isPlain_of_all (by cases f <;> rfl)

theorem ofName?_name (f : Field) : Field.ofName? (String.ofList f.name.toList) = some f := by
  cases f <;> decide

theorem isPlain_policy (p : LookupPolicy) : ∀ c ∈ p.name.toList, Json.Token.IsPlain c :=
  Json.Token.isPlain_of_all (by cases p <;> rfl)

theorem ofName?_policy (p : LookupPolicy) :
    LookupPolicy.ofName? (String.ofList p.name.toList) = some p := by
  cases p <;> decide

theorem reads_seconds (word : UInt64) :
    Json.Token.Reads (toString word.toNat).toList (.number (.natural word.toNat)) := by
  have htext : (toString word.toNat).toList = (Json.Number.natural word.toNat).written := by
    rw [Json.Number.written_natural]
    exact String.toList_ofList
  rw [htext]
  exact Json.Token.reads_number (Json.Number.isLiteral_natural word.toNat)

theorem readSeconds?_natural (word : UInt64) :
    readSeconds? (.number (.natural word.toNat)) = some (.ofSeconds word) := by
  rw [readSeconds?, Json.Number.toUInt64?_natural]
  rfl

/-- The text of a choice is that of a member from which the choice is set. -/
theorem exists_member (h : c.check = .ok ()) (f : Field) :
    ∃ m : Json.Member, m.name = f.name ∧ m.text = c.fieldJson f
      ∧ ∀ base, set? base f m.value = some (base.adopt c f) := by
  have hname := isPlain_name f
  cases f with
  | shared =>
    exact ⟨⟨_, _, .bool c.shared, .bool c.shared, hname, Json.Token.reads_bool c.shared, rfl⟩, rfl,
      rfl, fun _ => rfl⟩
  | lookupPolicy =>
    have hreads : Json.Token.Reads (c.fieldJson .lookupPolicy).toList
        (.string (some c.lookupPolicy.name.toList)) := by
      have htext : (c.fieldJson .lookupPolicy).toList
          = '"' :: c.lookupPolicy.name.toList ++ ['"'] := by
        simp [fieldJson]
      rw [htext]
      exact Json.Token.reads_quoted (isPlain_policy c.lookupPolicy)
    refine ⟨⟨_, _, _, _, hname, hreads, rfl⟩, rfl, rfl, fun base => ?_⟩
    rw [set?, readPolicy?, ofName?_policy]
    rfl
  | entryTtl =>
    refine ⟨⟨_, _, _, _, hname, reads_seconds c.entryTtl.seconds, rfl⟩, rfl, rfl, fun base => ?_⟩
    rw [set?, readSeconds?_natural]
    rfl
  | heuristicFraction =>
    obtain ⟨hge, hle⟩ := check_eq_ok_iff.1 h
    obtain ⟨n, hliteral, htext, hvalue⟩ := Json.Number.exists_literal hge hle
    have hreads : Json.Token.Reads (c.fieldJson .heuristicFraction).toList (.number n) := by
      rw [fieldJson, htext]
      exact Json.Token.reads_number hliteral
    refine ⟨⟨_, _, _, _, hname, hreads, rfl⟩, rfl, rfl, fun base => ?_⟩
    rw [set?, hvalue]
    rfl
  | heuristicCap =>
    refine ⟨⟨_, _, _, _, hname, reads_seconds c.heuristicCap.seconds, rfl⟩, rfl, rfl,
      fun base => ?_⟩
    rw [set?, readSeconds?_natural]
    rfl

/-! ## All choices -/

/-- From the members of different choices each of them is set. -/
theorem readMembers?_entries {member : Field → Json.Member}
    (hname : ∀ f, (member f).name = f.name)
    (hset : ∀ f base, set? base f (member f).value = some (base.adopt c f))
    (fields seen : List Field) (hnodup : fields.Nodup) (hseen : ∀ f ∈ fields, f ∉ seen)
    (base : Config) :
    readMembers? base seen (fields.map fun f => (member f).entry)
      = some (fields.foldl (fun base f => base.adopt c f) base) := by
  induction fields generalizing seen base with
  | nil => rfl
  | cons f fields ih =>
    obtain ⟨hf, hnodup⟩ := List.nodup_cons.1 hnodup
    have hnew : f ∉ seen := hseen f List.mem_cons_self
    have hrest : ∀ g ∈ fields, g ∉ f :: seen := by
      intro g hg
      rw [List.mem_cons, not_or]
      exact ⟨fun hgf => hf (hgf ▸ hg), hseen g (List.mem_cons_of_mem f hg)⟩
    rw [List.map_cons, Json.Member.entry, readMembers?, hname, ofName?_name]
    dsimp only
    rw [if_neg hnew, hset]
    exact ih (f :: seen) hnodup hrest (base.adopt c f)

/-- What is read back is the configuration in whole seconds. -/
theorem read?_toJson (h : c.check = .ok ()) : read? c.toJson = some c.inSeconds := by
  choose member hname htext hset using exists_member h
  have hjson : c.toJson
      = "\x7b" ++ Text.joinWith "," ((Field.all.map member).map Json.Member.written) ++ "\x7d" := by
    rw [toJson, List.map_map]
    refine congrArg (fun members => "\x7b" ++ Text.joinWith "," members ++ "\x7d") ?_
    refine List.map_congr_left fun f _ => ?_
    rw [Function.comp_apply, Json.Member.written, hname, htext]
  show (Json.ofString? c.toJson).bind ofJson? = _
  rw [hjson, Json.ofString?_object, Option.bind_some, ofJson?, List.map_map,
    ← foldl_adopt sharedCache]
  exact readMembers?_entries hname hset Field.all [] (by decide) (by decide) sharedCache

/-! ## What comes back -/

/-- A configuration that passes the check is read back from its own JSON, with the same kind of
cache, policy and fraction and with its lengths of time in whole seconds. So the cap comes back the
same if and only if it is a whole number of seconds. The same holds of a time to live that is zero
or at least a second; in the second case it does not come back as zero, and an entry that gets a
deadline gets one that is no later. -/
theorem survives_json (h : c.check = .ok ()) :
    ∃ back, read? c.toJson = some back ∧ back.check = .ok ()
      ∧ back.shared = c.shared ∧ back.lookupPolicy = c.lookupPolicy
      ∧ back.heuristicFraction = c.heuristicFraction
      ∧ back.heuristicCap = .ofSeconds c.heuristicCap.seconds
      ∧ (back.heuristicCap = c.heuristicCap ↔ c.heuristicCap.nanos = 0)
      ∧ (c.entryTtl = .zero ∨ 1 ≤ c.entryTtl.seconds →
          back.entryTtl = .ofSeconds c.entryTtl.seconds
          ∧ (back.entryTtl = c.entryTtl ↔ c.entryTtl.nanos = 0)
          ∧ (c.entryTtl ≠ .zero → back.entryTtl ≠ .zero)
          ∧ ∀ now d, Store.deadline c.entryTtl now = .ok (some d) →
            ∃ d', Store.deadline back.entryTtl now = .ok (some d') ∧ d' ≤ d) := by
  refine ⟨c.inSeconds, read?_toJson h, h, rfl, rfl, rfl, rfl, ofSeconds_seconds_iff, fun httl =>
    ⟨rfl, ofSeconds_seconds_iff, fun hne => ?_, fun now d hd => ?_⟩⟩
  · exact ofSeconds_ne_zero (httl.resolve_left hne)
  · rcases httl with hzero | hge
    · rw [hzero] at hd
      cases hd
    · exact Store.exists_deadline_ofSeconds_le hge hd

/-- Entries live for a minute and a half and half a second. -/
def ninetySeconds : Config :=
  { sharedCache with
    entryTtl := ⟨90, 500000000, by decide⟩
    heuristicCap := ⟨1, 500000000, by decide⟩ }

theorem survives_json_ninetySeconds :
    ninetySeconds.check = .ok () ∧ ∃ back, read? ninetySeconds.toJson = some back
      ∧ back.heuristicCap = .ofSeconds 1 ∧ back.entryTtl = .ofSeconds 90
      ∧ ∃ d, Store.deadline back.entryTtl .epoch = .ok (some d) := by
  have hcheck : ninetySeconds.check = .ok () := rfl
  have hdeadline : Store.deadline ninetySeconds.entryTtl .epoch
      = .ok (some ⟨90, 500000000, by decide, by decide, by decide, by decide⟩) := by
    decide +kernel
  obtain ⟨back, hread, -, -, -, -, hcap, -, httl⟩ := survives_json hcheck
  obtain ⟨hseconds, -, -, hdeadlines⟩ := httl (.inr (by decide))
  obtain ⟨d, hd, -⟩ := hdeadlines .epoch _ hdeadline
  exact ⟨hcheck, back, hread, hcap, hseconds, d, hd⟩

/-- Entries live for half a second. -/
def halfSecond : Config :=
  { sharedCache with
    entryTtl := ⟨0, 500000000, by decide⟩
    heuristicCap := ⟨1, 500000000, by decide⟩ }

/-- Neither the cap of a second and a half nor the time to live of half a second comes back. What
comes back instead of the latter is zero, with which entries have no deadlines. -/
theorem lost_in_json_halfSecond :
    halfSecond.check = .ok () ∧ ∃ back, read? halfSecond.toJson = some back
      ∧ back.heuristicCap ≠ halfSecond.heuristicCap
      ∧ halfSecond.entryTtl ≠ .zero ∧ back.entryTtl = .zero
      ∧ (∃ d, Store.deadline halfSecond.entryTtl .epoch = .ok (some d))
      ∧ Store.deadline back.entryTtl .epoch = .ok none := by
  have hcheck : halfSecond.check = .ok () := rfl
  have hdeadline : Store.deadline halfSecond.entryTtl .epoch
      = .ok (some ⟨0, 500000000, by decide, by decide, by decide, by decide⟩) := by
    decide +kernel
  exact ⟨hcheck, halfSecond.inSeconds, read?_toJson hcheck, by decide, by decide, rfl,
    ⟨_, hdeadline⟩, rfl⟩

end ResponseCache.Config
