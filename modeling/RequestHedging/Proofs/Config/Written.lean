import Mathlib.Data.List.Forall2
import RequestHedging.Config.Written
import RequestHedging.Proofs.Binary64.Text
import RequestHedging.Proofs.Duration.Iso

/-!
# Configurations written and read back

What is written of a field is read as a scalar that sets the field to what it was, unless it is a
percentile that is no finite number (`exists_value`).  So the members of an object restore one
field after the other (`readMembers_write`), and all of them restore the configuration.
-/

namespace RequestHedging.Config

open Json Duration

variable {c d : Config} {f : Field} {text : List Char}

/-! ## Values -/

def adopt (c d : Config) : Field → Config
  | .enabled => { d with enabled := c.enabled }
  | .percentile => { d with percentile := c.percentile }
  | .maxHedges => { d with maxHedges := c.maxHedges }
  | .minSamples => { d with minSamples := c.minSamples }
  | .window => { d with window := c.window }
  | .rotations => { d with rotations := c.rotations }
  | .maxLatency => { d with maxLatency := c.maxLatency }

/-- What becomes of a configuration when what is written of a field of another one is read. -/
def restore (c d : Config) (f : Field) : Except ReadFault Config :=
  if f = .percentile ∧ c.percentile.isFinite = false then .error .malformed
  else .ok (c.adopt d f)

/-- Only a percentile can change when it is read back. -/
theorem restore_of_ne (c d : Config) (h : f ≠ .percentile) : c.restore d f = .ok (c.adopt d f) :=
  if_neg fun hf => h hf.1

theorem readNatural_ofNat {limit m : Nat} (h : m < limit) :
    readNatural limit (.number (Numeral.ofNat m)) = .ok m := by
  simp only [readNatural, Numeral.natural?_ofNat, if_pos h]

theorem readDouble_number {n : Numeral} {x : Binary64} (h : n.double? = some x) :
    readDouble (.number n) = .ok x := by
  simp only [readDouble, h]

theorem isPlain_of_mem_write {d : Duration} {c : Char} (h : c ∈ Iso.write d) : IsPlain c := by
  have hplain : ∀ c ∈ ['P', 'T', 'H', 'M', 'S', '.'], IsPlain c := isPlain_of_all (by decide)
  exact (Iso.isMark_write h).elim isPlain_of_isDigit (hplain c)

/-- A quoted duration is read as the duration it was. -/
theorem restores_duration {d : Duration} (h : (Iso.write? d).map quotedPlainly = some text) :
    Reads text (.text (Iso.write d)) ∧ readDuration (.text (Iso.write d)) = .ok d := by
  obtain ⟨written, hwritten, rfl⟩ := Option.map_eq_some_iff.mp h
  unfold Iso.write? at hwritten
  split at hwritten
  · rename_i hmost
    obtain rfl := Option.some.inj hwritten
    constructor
    · intro rest _
      rw [quotedPlainly, List.cons_append, List.cons_append, List.append_assoc]
      exact tokens_quoted (fun _ => isPlain_of_mem_write) rest
    · simp only [readDuration, read_write hmost]
  · cases hwritten

/-- What is written of a field is read as a scalar that restores it. -/
theorem exists_value (h : c.writeValue f = some text) :
    ∃ value, Reads text value ∧ ∀ d : Config, d.set value f = c.restore d f := by
  cases f with
  | enabled =>
    obtain rfl := Option.some.inj h
    refine ⟨_, reads_bool c.enabled, fun d => ?_⟩
    rw [c.restore_of_ne d (by decide)]
    rfl
  | percentile =>
    obtain rfl := Option.some.inj h
    by_cases hfinite : c.percentile.isFinite = true
    · obtain ⟨n, hsound, hchars, hdouble⟩ := Binary64.exists_numeral_text hfinite
      rw [if_pos hfinite, ← hchars]
      refine ⟨_, reads_number hsound, fun d => ?_⟩
      rw [set, readDouble_number hdouble, restore, if_neg (by simp [hfinite])]
      rfl
    · rw [if_neg hfinite]
      refine ⟨_, reads_null, fun d => ?_⟩
      rw [restore, if_pos ⟨rfl, Bool.eq_false_iff.mpr hfinite⟩]
      rfl
  | maxHedges =>
    obtain rfl := Option.some.inj h
    refine ⟨_, reads_numeral _, fun d => ?_⟩
    rw [c.restore_of_ne d (by decide), set, readNatural_ofNat c.maxHedges.toNat_lt, Except.map,
      UInt32.ofNat_toNat]
    rfl
  | minSamples =>
    obtain rfl := Option.some.inj h
    refine ⟨_, reads_numeral _, fun d => ?_⟩
    rw [c.restore_of_ne d (by decide), set, readNatural_ofNat c.minSamples.toNat_lt, Except.map,
      UInt64.ofNat_toNat]
    rfl
  | rotations =>
    obtain rfl := Option.some.inj h
    refine ⟨_, reads_numeral _, fun d => ?_⟩
    rw [c.restore_of_ne d (by decide), set, readNatural_ofNat c.rotations.toNat_lt, Except.map,
      UInt32.ofNat_toNat]
    rfl
  | window =>
    obtain ⟨hreads, hset⟩ := restores_duration h
    refine ⟨_, hreads, fun d => ?_⟩
    rw [c.restore_of_ne d (by decide), set, hset]
    rfl
  | maxLatency =>
    obtain ⟨hreads, hset⟩ := restores_duration h
    refine ⟨_, hreads, fun d => ?_⟩
    rw [c.restore_of_ne d (by decide), set, hset]
    rfl

/-! ## Members -/

theorem isPlain_of_mem_key (f : Field) : ∀ c ∈ f.key.toList, IsPlain c :=
  isPlain_of_all (by cases f <;> decide)

theorem ofKey?_key (f : Field) : Field.ofKey? f.key.toList = some f := by
  cases f <;> decide

/-- A member is a key, a colon and a scalar. -/
theorem exists_tokens_member {member : List Char} (h : c.writeMember f = some member) :
    ∃ value, (∀ d : Config, d.set value f = c.restore d f) ∧
      ∀ rest, Ends rest → tokens (member ++ rest) =
        .scalar (.text f.key.toList) :: .colon :: .scalar value :: tokens rest := by
  obtain ⟨text, htext, rfl⟩ := Option.map_eq_some_iff.mp h
  obtain ⟨value, hreads, hset⟩ := exists_value htext
  refine ⟨value, hset, fun rest hrest => ?_⟩
  rw [quotedPlainly, List.cons_append, List.cons_append, List.cons_append, List.append_assoc,
    List.append_assoc, List.singleton_append, tokens_quoted (isPlain_of_mem_key f),
    List.cons_append, tokens_colon, hreads rest hrest]

/-- The members of an object restore their fields, one after the other. -/
theorem readMembers_write {fs : List Field} {members : List (List Char)}
    (h : List.Forall₂ (fun f member => c.writeMember f = some member) fs members)
    (hsome : fs ≠ []) (hnodup : fs.Nodup) {seen : List Field} (hseen : ∀ f ∈ fs, f ∉ seen)
    (d : Config) :
    ∃ key rest, tokens ([','].intercalate members ++ ['\x7d']) = .scalar key :: rest ∧
      readMembers seen d (.scalar key :: rest) = fs.foldlM c.restore d := by
  induction h generalizing seen d with
  | nil => exact absurd rfl hsome
  | @cons f member fs members hmember hrest ih =>
    obtain ⟨value, hset, htokens⟩ := exists_tokens_member hmember
    have hunseen : f ∉ seen := hseen f List.mem_cons_self
    rw [List.foldlM_cons]
    cases hrest with
    | nil =>
      rw [List.intercalate_singleton, htokens _ (ends_closeBrace []), tokens_closeBrace, tokens_nil]
      refine ⟨_, _, rfl, ?_⟩
      rw [readMembers, ofKey?_key]
      dsimp only
      rw [if_neg hunseen, hset d]
      cases c.restore d f <;> rfl
    | @cons f' member' fs members hmember' hrest =>
      rw [List.intercalate_cons_cons, List.append_assoc, List.append_assoc, List.singleton_append,
        htokens _ (ends_comma _), tokens_comma]
      refine ⟨_, _, rfl, ?_⟩
      rw [readMembers, ofKey?_key]
      dsimp only
      rw [if_neg hunseen, hset d]
      cases c.restore d f with
      | error fault => rfl
      | ok e =>
        have hnodup' := List.nodup_cons.mp hnodup
        have hunseen' : ∀ g ∈ f' :: fs, g ∉ f :: seen := by
          intro g hg hmem
          rcases List.mem_cons.mp hmem with rfl | hmem
          · exact hnodup'.1 hg
          · exact hseen g (List.mem_cons_of_mem _ hg) hmem
        obtain ⟨key, rest, hrest, hread⟩ := ih (List.cons_ne_nil _ _) hnodup'.2 hunseen' e
        rw [← hrest] at hread
        exact hread

section Members

variable {fs : List Field} {members : List (List Char)}

/-- The members are written unless one of the values is not. -/
theorem mapM_writeMember_eq_none_iff :
    fs.mapM c.writeMember = none ↔ ∃ f ∈ fs, c.writeValue f = none := by
  induction fs with
  | nil => exact iff_of_false (Option.some_ne_none _) (by simp)
  | cons f fs ih =>
    have hvalue : c.writeMember f = none ↔ c.writeValue f = none := Option.map_eq_none_iff
    rw [List.mapM_cons, List.exists_mem_cons_iff, ← hvalue, ← ih]
    cases c.writeMember f with
    | none => exact iff_of_true rfl (.inl rfl)
    | some member => cases fs.mapM c.writeMember <;> simp

theorem forall₂_of_mapM_writeMember (h : fs.mapM c.writeMember = some members) :
    List.Forall₂ (fun f member => c.writeMember f = some member) fs members := by
  induction fs generalizing members with
  | nil =>
    cases h
    exact .nil
  | cons f fs ih =>
    rw [List.mapM_cons] at h
    obtain ⟨member, hmember, h⟩ := Option.bind_eq_some_iff.mp h
    obtain ⟨rest, hrest, h⟩ := Option.bind_eq_some_iff.mp h
    cases h
    exact .cons hmember (ih hrest)

end Members

/-! ## Configurations -/

/-- Durations of more seconds than are read are not written. -/
theorem write?_eq_none_iff (c : Config) :
    c.write? = none ↔ mostSeconds < c.window.nanos / 1000000000 ∨
      mostSeconds < c.maxLatency.nanos / 1000000000 := by
  rw [write?, Option.map_eq_none_iff, mapM_writeMember_eq_none_iff]
  simp [Field.all, writeValue, Iso.write?]

/-- All fields restored in turn are the configuration, unless the percentile stops it. -/
theorem foldlM_restore (c d : Config) :
    Field.all.foldlM c.restore d =
      if c.percentile.isFinite then .ok c else .error .malformed := by
  cases hfinite : c.percentile.isFinite with
  | true =>
    have hrestore : c.restore = fun d f => .ok (c.adopt d f) := by
      funext d f
      exact if_neg fun hf => absurd (hfinite.symm.trans hf.2) (by decide)
    rw [hrestore]
    rfl
  | false =>
    have hpercentile (d : Config) : c.restore d .percentile = .error .malformed :=
      if_pos ⟨rfl, hfinite⟩
    have henabled : c.restore d .enabled = .ok (c.adopt d .enabled) :=
      c.restore_of_ne d (by decide)
    simp only [Field.all, List.foldlM_cons, henabled]
    show (c.restore _ .percentile >>= _) = _
    rw [hpercentile]
    rfl

/-- A configuration is written unless one of its durations has too many seconds.  What is written
is read as the same configuration in all its fields if the percentile is finite, and refused if it
is not. -/
theorem read_written (c : Config) :
    (c.write? = none ↔ mostSeconds < c.window.nanos / 1000000000 ∨
      mostSeconds < c.maxLatency.nanos / 1000000000) ∧
    ∀ text ∈ c.write?,
      read text = if c.percentile.isFinite then .ok c else .error .malformed := by
  refine ⟨c.write?_eq_none_iff, fun text htext => ?_⟩
  obtain ⟨members, hmembers, rfl⟩ := Option.map_eq_some_iff.mp htext
  have hall := forall₂_of_mapM_writeMember hmembers
  have hunseen : ∀ f ∈ Field.all, f ∉ ([] : List Field) := fun f _ => List.not_mem_nil
  obtain ⟨key, rest, htokens, hread⟩ :=
    readMembers_write hall (by decide) (by decide) hunseen standard
  rw [read, List.cons_append, tokens_openBrace, htokens]
  exact hread.trans (c.foldlM_restore standard)

end RequestHedging.Config
