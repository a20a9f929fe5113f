import Mathlib.Data.List.Nodup
import RequestHedging.Proofs.Config.Written
import RequestHedging.Proofs.Json.Document

/-!
# All written forms of a configuration

A value does to its field what it does alone, whatever stands in the other fields (`put_eq`).  So
fields that are given each once are read as one configuration, in whatever order they stand, and
this is the only one that has all their values and is standard in all others (`settles_iff`).  An
array is the object of the first fields with its elements as their values.
-/

namespace RequestHedging.Config

open Json

/-! ## Fields -/

inductive Setting
  | flag (b : Bool)
  | double (x : Binary64)
  | count (n : UInt32)
  | longCount (n : UInt64)
  | duration (d : Duration)
deriving DecidableEq

def setting (c : Config) : Field → Setting
  | .enabled => .flag c.enabled
  | .percentile => .double c.percentile
  | .maxHedges => .count c.maxHedges
  | .minSamples => .longCount c.minSamples
  | .window => .duration c.window
  | .rotations => .count c.rotations
  | .maxLatency => .duration c.maxLatency

section Field

variable {c d : Config} {f : Field}

theorem ext_setting (h : ∀ f, c.setting f = d.setting f) : c = d := by
  cases c
  cases d
  have henabled := h .enabled
  have hpercentile := h .percentile
  have hmaxHedges := h .maxHedges
  have hminSamples := h .minSamples
  have hwindow := h .window
  have hrotations := h .rotations
  have hmaxLatency := h .maxLatency
  simp only [setting, Setting.flag.injEq, Setting.double.injEq, Setting.count.injEq,
    Setting.longCount.injEq, Setting.duration.injEq] at *
  simp only [Config.mk.injEq]
  exact ⟨henabled, hpercentile, hmaxHedges, hminSamples, hwindow, hrotations, hmaxLatency⟩

@[simp] theorem setting_adopt_self (c d : Config) (f : Field) :
    (c.adopt d f).setting f = c.setting f := by
  cases f <;> rfl

/-- Adopting a field leaves the others as they are. -/
theorem setting_adopt_of_ne (c d : Config) {f g : Field} (h : g ≠ f) :
    (c.adopt d f).setting g = d.setting g := by
  cases f <;> cases g <;> first | rfl | exact absurd rfl h

/-- A scalar does to its field what it does in the standard configuration. -/
theorem set_eq (c : Config) (value : Scalar) (f : Field) :
    c.set value f = (standard.set value f).map fun d => d.adopt c f := by
  cases f with
  | enabled =>
    unfold set
    cases readBool value <;> rfl
  | percentile =>
    unfold set
    cases readDouble value <;> rfl
  | maxHedges =>
    unfold set
    cases readNatural UInt32.size value <;> rfl
  | minSamples =>
    unfold set
    cases readNatural UInt64.size value <;> rfl
  | window =>
    unfold set
    cases readDuration value <;> rfl
  | rotations =>
    unfold set
    cases readNatural UInt32.size value <;> rfl
  | maxLatency =>
    unfold set
    cases readDuration value <;> rfl

end Field

/-! ## Values -/

/-- Sets a field to a value; one that holds others is no value of a field. -/
def put (c : Config) (f : Field) : Value → Except ReadFault Config
  | .scalar s => c.set s f
  | _ => .error .malformed

/-- A value does to its field what it does alone. -/
theorem put_eq (c : Config) (f : Field) (v : Value) :
    c.put f v = (standard.put f v).map fun d => d.adopt c f := by
  cases v with
  | scalar s => exact set_eq c s f
  | array elements => rfl
  | object members => rfl

def putAll (c : Config) (members : List (Field × Value)) : Except ReadFault Config :=
  members.foldlM (fun c m => c.put m.1 m.2) c

theorem putAll_cons (c : Config) (m : Field × Value) (members : List (Field × Value)) :
    c.putAll (m :: members) = c.put m.1 m.2 >>= fun d => d.putAll members :=
  List.foldlM_cons

/-- A configuration has the values of all members, and is the same as another one in all other
fields. -/
structure Settles (c : Config) (members : List (Field × Value)) (d : Config) : Prop where
  given : ∀ m ∈ members, ∃ e, standard.put m.1 m.2 = .ok e ∧ d.setting m.1 = e.setting m.1
  others : ∀ f ∉ members.map Prod.fst, d.setting f = c.setting f

section Settles

variable {c d : Config} {members members' : List (Field × Value)}

theorem settles_nil_iff : c.Settles [] d ↔ c = d := by
  constructor
  · intro h
    exact ext_setting fun f => (h.others f List.not_mem_nil).symm
  · rintro rfl
    exact ⟨fun m hm => absurd hm List.not_mem_nil, fun f _ => rfl⟩

/-- The first member sets its field, which the others leave alone. -/
theorem settles_cons_iff {f : Field} {v : Value} (hnew : f ∉ members.map Prod.fst) :
    c.Settles ((f, v) :: members) d ↔
      ∃ e, standard.put f v = .ok e ∧ (e.adopt c f).Settles members d := by
  constructor
  · intro h
    obtain ⟨e, halone, hsetting⟩ := h.given (f, v) List.mem_cons_self
    refine ⟨e, halone, fun m hm => h.given m (List.mem_cons_of_mem _ hm), fun g hg => ?_⟩
    by_cases hgf : g = f
    · subst hgf
      rw [setting_adopt_self]
      exact hsetting
    · rw [setting_adopt_of_ne e c hgf]
      exact h.others g fun hmem => (List.mem_cons.mp hmem).elim hgf hg
  · rintro ⟨e, halone, h⟩
    refine ⟨fun m hm => ?_, fun g hg => ?_⟩
    · rcases List.mem_cons.mp hm with rfl | hm
      · refine ⟨e, halone, ?_⟩
        rw [h.others f hnew, setting_adopt_self]
      · exact h.given m hm
    · obtain ⟨hgf, hg⟩ := not_or.mp (mt List.mem_cons.mpr hg)
      rw [h.others g hg, setting_adopt_of_ne e c hgf]

/-- Members of different fields are read as the only configuration that they settle. -/
theorem putAll_eq_ok_iff (hnodup : (members.map Prod.fst).Nodup) :
    c.putAll members = .ok d ↔ c.Settles members d := by
  induction members generalizing c with
  | nil => exact Except.ok.injEq c d ▸ settles_nil_iff.symm
  | cons m members ih =>
    obtain ⟨f, v⟩ := m
    obtain ⟨hnew, hnodup⟩ := List.nodup_cons.mp hnodup
    rw [putAll_cons, put_eq, settles_cons_iff hnew]
    cases standard.put f v with
    | error fault =>
      constructor
      · intro h
        cases h
      · rintro ⟨e, h, -⟩
        cases h
    | ok e =>
      refine (ih hnodup).trans ?_
      constructor
      · exact fun h => ⟨e, rfl, h⟩
      · rintro ⟨e, ⟨⟩, h⟩
        exact h

/-- Values that are accepted alone are accepted together. -/
theorem exists_settles (hnodup : (members.map Prod.fst).Nodup) (c : Config)
    (h : ∀ m ∈ members, ∃ e, standard.put m.1 m.2 = .ok e) : ∃ d, c.Settles members d := by
  induction members generalizing c with
  | nil => exact ⟨c, settles_nil_iff.mpr rfl⟩
  | cons m members ih =>
    obtain ⟨hnew, hnodup⟩ := List.nodup_cons.mp hnodup
    obtain ⟨e, hput⟩ := h m List.mem_cons_self
    obtain ⟨d, hsettles⟩ := ih hnodup (e.adopt c m.1) fun m' hm' =>
      h m' (List.mem_cons_of_mem m hm')
    exact ⟨d, (settles_cons_iff hnew).mpr ⟨e, hput, hsettles⟩⟩

/-- The order of the members does not matter. -/
theorem Settles.perm (h : c.Settles members d) (hperm : members'.Perm members) :
    c.Settles members' d :=
  ⟨fun m hm => h.given m (hperm.mem_iff.mp hm),
    fun f hf => h.others f fun hmem => hf ((hperm.map Prod.fst).mem_iff.mpr hmem)⟩

theorem toOption_eq_of_iff {a b : Except ReadFault Config} (h : ∀ c, a = .ok c ↔ b = .ok c) :
    a.toOption = b.toOption := by
  cases a with
  | ok c => rw [(h c).mp rfl]
  | error fault =>
    cases b with
    | ok c => cases (h c).mpr rfl
    | error fault' => rfl

/-- The order of members does not matter. -/
theorem putAll_perm (hnodup : (members.map Prod.fst).Nodup) (hperm : members'.Perm members) :
    (c.putAll members').toOption = (c.putAll members).toOption := by
  have hnodup' : (members'.map Prod.fst).Nodup := (hperm.map Prod.fst).nodup_iff.mpr hnodup
  apply toOption_eq_of_iff
  intro d
  rw [putAll_eq_ok_iff hnodup, putAll_eq_ok_iff hnodup']
  exact ⟨fun h => h.perm hperm.symm, fun h => h.perm hperm⟩

end Settles

/-! ## Objects -/

def takeMember (seen : List Field) (c : Config) (key : List Char) (v : Value) :
    Except ReadFault (List Field × Config) :=
  match Field.ofKey? key with
  | none => .error .malformed
  | some f =>
    if f ∈ seen then .error .malformed else (c.put f v).map fun d => (f :: seen, d)

def ofMembers (seen : List Field) (c : Config) :
    List (List Char × Value) → Except ReadFault Config
  | [] => .ok c
  | (key, v) :: members =>
    takeMember seen c key v >>= fun taken => ofMembers taken.1 taken.2 members

def readAfter (after : List Token) (taken : List Field × Config) : Except ReadFault Config :=
  match after with
  | [.closeBrace] => .ok taken.2
  | .comma :: rest => readMembers taken.1 taken.2 rest
  | _ => .error .malformed

def keyed (members : List (Field × Value)) : List (List Char × Value) :=
  members.map fun m => (m.1.key.toList, m.2)

section Object

variable {seen : List Field} {c d : Config}

/-- A value that is none of a field is malformed, whatever its key. -/
theorem takeMember_of_put {v : Value} (h : ∀ f, c.put f v = .error .malformed)
    (seen : List Field) (key : List Char) : takeMember seen c key v = .error .malformed := by
  unfold takeMember
  split
  · rfl
  · rename_i f _
    rw [h f]
    split <;> rfl

/-- A member of a field not seen so far sets that field. -/
theorem takeMember_key {f : Field} (h : f ∉ seen) (c : Config) (v : Value) :
    takeMember seen c f.key.toList v = (c.put f v).map fun d => (f :: seen, d) := by
  unfold takeMember
  rw [ofKey?_key]
  exact if_neg h

theorem key_of_ofKey? {key : List Char} {f : Field} (h : Field.ofKey? key = some f) :
    f.key.toList = key := by
  simpa using List.find?_some h

/-- Different fields have different keys. -/
theorem key_injective : Function.Injective fun f : Field => f.key.toList := by
  intro f g h
  have hsame : Field.ofKey? f.key.toList = Field.ofKey? g.key.toList := congrArg Field.ofKey? h
  rw [ofKey?_key, ofKey?_key] at hsame
  exact Option.some.inj hsame

/-- What is taken is a field by its key, for the first time. -/
theorem exists_field_of_takeMember {key : List Char} {v : Value} {taken : List Field × Config}
    (h : takeMember seen c key v = .ok taken) :
    ∃ f, f.key.toList = key ∧ f ∉ seen ∧ taken.1 = f :: seen := by
  unfold takeMember at h
  split at h
  · cases h
  · rename_i f hkey
    split at h
    · cases h
    · rename_i hseen
      refine ⟨f, key_of_ofKey? hkey, hseen, ?_⟩
      cases hput : c.put f v with
      | error fault =>
        rw [hput] at h
        cases h
      | ok d =>
        rw [hput] at h
        cases h
        rfl

/-- The first of some members is read, and then what follows it. -/
theorem readMembers_cons (seen : List Field) (c : Config) (key : List Char) (v : Value)
    (after : List Token) :
    readMembers seen c (.scalar (.text key) :: .colon :: (v.tokens ++ after)) =
      takeMember seen c key v >>= readAfter after := by
  -- a value that holds others begins with a bracket, where no member goes on
  have hbracket : ∀ t rest, t = .openBracket ∨ t = .openBrace →
      readMembers seen c (.scalar (.text key) :: .colon :: t :: rest) = .error .malformed := by
    rintro t rest (rfl | rfl) <;> rfl
  cases v with
  | scalar s =>
    rw [Value.tokens, List.singleton_append, readMembers, takeMember]
    cases Field.ofKey? key with
    | none => rfl
    | some f =>
      dsimp only [put]
      split
      · rfl
      · cases c.set s f with
        | error fault => rfl
        | ok d => rfl
  | array elements =>
    obtain ⟨rest, htokens⟩ := Value.exists_tokens_array elements
    rw [htokens, takeMember_of_put fun _ => rfl]
    exact hbracket _ _ (.inl rfl)
  | object members =>
    obtain ⟨rest, htokens⟩ := Value.exists_tokens_object members
    rw [htokens, takeMember_of_put fun _ => rfl]
    exact hbracket _ _ (.inr rfl)

/-- The tokens of members are read one member after the other. -/
theorem readMembers_tokens (seen : List Field) (c : Config) (key : List Char) (v : Value)
    (members : List (List Char × Value)) :
    readMembers seen c
        (.scalar (.text key) :: .colon :: (v.tokens ++ Value.moreMembers members)) =
      ofMembers seen c ((key, v) :: members) := by
  induction members generalizing seen c key v with
  | nil => exact readMembers_cons seen c key v _
  | cons m members ih =>
    rw [readMembers_cons, ofMembers, Value.moreMembers]
    exact congrArg _ (funext fun taken => ih taken.1 taken.2 m.1 m.2)

theorem ofTokens_object (members : List (List Char × Value)) :
    ofTokens (Value.object members).tokens = ofMembers [] standard members := by
  cases members with
  | nil => rfl
  | cons m members => exact readMembers_tokens [] standard m.1 m.2 members

/-- Members of different fields are read one after the other. -/
theorem ofMembers_keyed {members : List (Field × Value)} (hnodup : (members.map Prod.fst).Nodup)
    (hunseen : ∀ f ∈ members.map Prod.fst, f ∉ seen) (c : Config) :
    ofMembers seen c (keyed members) = c.putAll members := by
  induction members generalizing seen c with
  | nil => rfl
  | cons m members ih =>
    obtain ⟨f, v⟩ := m
    obtain ⟨hnew, hnodup⟩ := List.nodup_cons.mp hnodup
    have hunseen' : ∀ g ∈ members.map Prod.fst, g ∉ f :: seen := by
      intro g hg hmem
      rcases List.mem_cons.mp hmem with rfl | hmem
      · exact hnew hg
      · exact hunseen g (List.mem_cons_of_mem _ hg) hmem
    show ofMembers seen c ((f.key.toList, v) :: keyed members) = _
    rw [ofMembers, takeMember_key (hunseen f List.mem_cons_self), putAll_cons]
    cases c.put f v with
    | error fault => rfl
    | ok d => exact ih hnodup hunseen' d

/-- Whatever is accepted gives fields by their keys, each once. -/
theorem exists_keyed_of_ok {members : List (List Char × Value)}
    (h : ofMembers seen c members = .ok d) :
    ∃ fields : List (Field × Value), members = keyed fields ∧
      (fields.map Prod.fst).Nodup ∧ ∀ f ∈ fields.map Prod.fst, f ∉ seen := by
  induction members generalizing seen c with
  | nil => exact ⟨[], rfl, .nil, fun f hf => absurd hf List.not_mem_nil⟩
  | cons m members ih =>
    obtain ⟨key, v⟩ := m
    cases htake : takeMember seen c key v with
    | error fault =>
      rw [ofMembers, htake] at h
      cases h
    | ok taken =>
      rw [ofMembers, htake] at h
      obtain ⟨f, rfl, hnew, hseen⟩ := exists_field_of_takeMember htake
      obtain ⟨fields, rfl, hnodup, hunseen⟩ := ih h
      rw [hseen] at hunseen
      refine ⟨(f, v) :: fields, rfl, ?_, ?_⟩
      · exact List.nodup_cons.mpr ⟨fun hmem => hunseen f hmem List.mem_cons_self, hnodup⟩
      · intro g hg
        rcases List.mem_cons.mp hg with rfl | hg
        · exact hnew
        · exact fun hmem => hunseen g hg (List.mem_cons_of_mem _ hmem)

end Object

/-! ## Arrays -/

def ofElements (c : Config) : List Field → List Value → Except ReadFault Config
  | _, [] => .ok c
  | f :: fields, v :: elements => c.put f v >>= fun d => ofElements d fields elements
  | [], _ :: _ => .error .malformed

def readNext (fields : List Field) (after : List Token) (c : Config) : Except ReadFault Config :=
  match after with
  | [.closeBracket] => .ok c
  | .comma :: rest => readElements c fields rest
  | _ => .error .malformed

section Array

variable {fields : List Field} {elements : List Value}

theorem readElements_cons (c : Config) (f : Field) (fields : List Field) (v : Value)
    (after : List Token) :
    readElements c (f :: fields) (v.tokens ++ after) = c.put f v >>= readNext fields after := by
  have hbracket : ∀ t rest, t = .openBracket ∨ t = .openBrace →
      readElements c (f :: fields) (t :: rest) = .error .malformed := by
    rintro t rest (rfl | rfl) <;> rfl
  cases v with
  | scalar s =>
    rw [Value.tokens, List.singleton_append, readElements]
    dsimp only [put]
    cases c.set s f with
    | error fault => rfl
    | ok d => rfl
  | array elements =>
    obtain ⟨rest, htokens⟩ := Value.exists_tokens_array elements
    rw [htokens]
    exact hbracket _ _ (.inl rfl)
  | object members =>
    obtain ⟨rest, htokens⟩ := Value.exists_tokens_object members
    rw [htokens]
    exact hbracket _ _ (.inr rfl)

/-- The tokens of elements are read one element after the other. -/
theorem readElements_tokens (c : Config) (fields : List Field) (v : Value)
    (elements : List Value) :
    readElements c fields (v.tokens ++ Value.moreElements elements) =
      ofElements c fields (v :: elements) := by
  induction elements generalizing c fields v with
  | nil =>
    cases fields with
    | nil => rfl
    | cons f fields =>
      rw [readElements_cons, ofElements]
      cases fields <;> rfl
  | cons w elements ih =>
    cases fields with
    | nil => rfl
    | cons f fields =>
      rw [readElements_cons, ofElements, Value.moreElements]
      exact congrArg _ (funext fun d => ih d fields w)

theorem ofTokens_array (elements : List Value) :
    ofTokens (Value.array elements).tokens = ofElements standard Field.all elements := by
  cases elements with
  | nil => rfl
  | cons v elements =>
    rw [← readElements_tokens, Value.tokens]
    cases v with
    | scalar s => rfl
    | array inner =>
      obtain ⟨rest, htokens⟩ := Value.exists_tokens_array inner
      rw [htokens]
      rfl
    | object inner =>
      obtain ⟨rest, htokens⟩ := Value.exists_tokens_object inner
      rw [htokens]
      rfl

/-- Elements are the values of the fields in their order. -/
theorem ofElements_eq (hlength : elements.length ≤ fields.length) (c : Config) :
    ofElements c fields elements = c.putAll (fields.zip elements) := by
  induction elements generalizing c fields with
  | nil => cases fields <;> rfl
  | cons v elements ih =>
    cases fields with
    | nil => cases hlength
    | cons f fields =>
      rw [ofElements, List.zip_cons_cons, putAll_cons]
      exact congrArg _ (funext fun d => ih (Nat.le_of_succ_le_succ hlength) d)

/-- An array must not have more elements than there are fields. -/
theorem exists_error_of_length_lt (hlength : fields.length < elements.length) (c : Config) :
    ∃ fault, ofElements c fields elements = .error fault := by
  induction elements generalizing c fields with
  | nil => cases hlength
  | cons v elements ih =>
    cases fields with
    | nil => exact ⟨_, rfl⟩
    | cons f fields =>
      rw [ofElements]
      cases c.put f v with
      | error fault => exact ⟨fault, rfl⟩
      | ok d => exact ih (Nat.lt_of_succ_lt_succ hlength) d

theorem sublist_zip (fields : List Field) (elements : List Value) :
    ((fields.zip elements).map Prod.fst).Sublist fields := by
  induction fields generalizing elements with
  | nil => exact List.Sublist.slnil
  | cons f fields ih =>
    cases elements with
    | nil => exact List.nil_sublist _
    | cons v elements => exact (ih elements).cons_cons f

theorem nodup_zip_all (elements : List Value) : ((Field.all.zip elements).map Prod.fst).Nodup := by
  have hall : Field.all.Nodup := by decide
  exact (sublist_zip _ _).nodup hall

end Array

/-! ## Forms -/

/-- What every text of a value is read as. -/
def ofValue (v : Value) : Except ReadFault Config := ofTokens v.tokens

section Forms

variable {text : List Char} {c : Config}

/-- All texts that a value is written as are read alike. -/
theorem read_of_writes {v : Value} (h : Writes text v) : read text = ofValue v :=
  congrArg ofTokens h

/-- An object of different fields sets each of them. -/
theorem ofValue_keyed {members : List (Field × Value)} (hnodup : (members.map Prod.fst).Nodup) :
    ofValue (.object (keyed members)) = standard.putAll members :=
  (ofTokens_object _).trans (ofMembers_keyed hnodup (fun _ _ => List.not_mem_nil) standard)

/-- A field alone has the value that it has among others. -/
theorem ofValue_keyed_singleton (m : Field × Value) :
    ofValue (.object (keyed [m])) = standard.put m.1 m.2 := by
  have hnodup : ([m].map Prod.fst).Nodup := List.pairwise_singleton _ _
  rw [ofValue_keyed hnodup, putAll_cons]
  cases standard.put m.1 m.2 <;> rfl

theorem ofValue_array {elements : List Value} (hlength : elements.length ≤ Field.all.length) :
    ofValue (.array elements) = standard.putAll (Field.all.zip elements) :=
  (ofTokens_array _).trans (ofElements_eq hlength standard)

/-- No configuration has a negative duration. -/
theorem put_of_negative {f : Field} (hf : f = .window ∨ f = .maxLatency) {s : List Char}
    {nanos : Int} (hread : Duration.readSigned s = some nanos) (hnegative : nanos < 0) :
    standard.put f (.scalar (.text s)) = .error .negativeDuration := by
  have hduration : readDuration (.text s) = .error .negativeDuration := by
    simp only [readDuration, Duration.read, hread, if_pos hnegative]
  rcases hf with rfl | rfl
  · show (readDuration (.text s)).map _ = _
    rw [hduration]
    rfl
  · show (readDuration (.text s)).map _ = _
    rw [hduration]
    rfl

end Forms

/-- All texts that give fields the same values, each field once, are read alike: the value of each
field is the one that it has alone, and fields that are not given are standard. -/
structure Agreement (members : List (Field × Value)) : Prop where
  orders : ∀ members' text text', members'.Perm members →
    Writes text (.object (keyed members)) → Writes text' (.object (keyed members')) →
    (read text').toOption = (read text).toOption
  accepted : ∀ text, Writes text (.object (keyed members)) →
    ((∃ c, read text = .ok c) ↔ ∀ m ∈ members, ∃ c, ofValue (.object (keyed [m])) = .ok c)
  given : ∀ text c, Writes text (.object (keyed members)) → read text = .ok c →
    ∀ m ∈ members, ∃ d, ofValue (.object (keyed [m])) = .ok d ∧ c.setting m.1 = d.setting m.1
  omitted : ∀ text c, Writes text (.object (keyed members)) → read text = .ok c →
    ∀ f ∉ members.map Prod.fst, c.setting f = standard.setting f
  /-- An array gives the first fields their values. -/
  positional : ∀ elements text text', elements.length ≤ Field.all.length →
    members.Perm (Field.all.zip elements) →
    Writes text (.object (keyed members)) → Writes text' (.array elements) →
    (read text').toOption = (read text).toOption

structure Refusal : Prop where
  unknown : ∀ members text, Writes text (.object members) →
    (∃ m ∈ members, ∀ f : Field, m.1 ≠ f.key.toList) → ∃ fault, read text = .error fault
  repeated : ∀ members text, Writes text (.object members) →
    ¬ (members.map Prod.fst).Nodup → ∃ fault, read text = .error fault
  tooMany : ∀ elements text, Writes text (.array elements) →
    Field.all.length < elements.length → ∃ fault, read text = .error fault
  negative : ∀ members text, Writes text (.object members) →
    ∀ f s nanos, f = Field.window ∨ f = Field.maxLatency →
    (f.key.toList, Value.scalar (.text s)) ∈ members →
    Duration.readSigned s = some nanos → nanos < 0 → ∃ fault, read text = .error fault
  negativeElement : ∀ elements text, Writes text (.array elements) →
    ∀ f s nanos, f = Field.window ∨ f = Field.maxLatency →
    (f, Value.scalar (.text s)) ∈ Field.all.zip elements →
    Duration.readSigned s = some nanos → nanos < 0 → ∃ fault, read text = .error fault

section Forms

variable {members : List (Field × Value)}

/-- Members of different fields are read alike in every form. -/
theorem agreement_of_nodup (hnodup : (members.map Prod.fst).Nodup) : Agreement members := by
  have hsettles : ∀ {text c}, Writes text (.object (keyed members)) →
      (read text = .ok c ↔ standard.Settles members c) := by
    intro text c htext
    rw [read_of_writes htext, ofValue_keyed hnodup, putAll_eq_ok_iff hnodup]
  refine ⟨?_, ?_, ?_, ?_, ?_⟩
  · intro members' text text' hperm htext htext'
    have hnodup' : (members'.map Prod.fst).Nodup := (hperm.map Prod.fst).nodup_iff.mpr hnodup
    rw [read_of_writes htext, read_of_writes htext', ofValue_keyed hnodup, ofValue_keyed hnodup']
    exact putAll_perm hnodup hperm
  · intro text htext
    simp only [hsettles htext, ofValue_keyed_singleton]
    constructor
    · rintro ⟨c, h⟩ m hm
      obtain ⟨d, hput, -⟩ := h.given m hm
      exact ⟨d, hput⟩
    · exact exists_settles hnodup standard
  · intro text c htext hread m hm
    obtain ⟨d, hput, hsetting⟩ := ((hsettles htext).mp hread).given m hm
    exact ⟨d, (ofValue_keyed_singleton m).trans hput, hsetting⟩
  · intro text c htext hread f hf
    exact ((hsettles htext).mp hread).others f hf
  · intro elements text text' hlength hperm htext htext'
    rw [read_of_writes htext, read_of_writes htext', ofValue_keyed hnodup, ofValue_array hlength]
    exact putAll_perm hnodup hperm.symm

theorem exists_error_of_forall_ne {a : Except ReadFault Config} (h : ∀ c, a ≠ .ok c) :
    ∃ fault, a = .error fault := by
  cases a with
  | error fault => exact ⟨fault, rfl⟩
  | ok c => exact absurd rfl (h c)

/-- Unknown and repeated keys, long arrays and negative durations are refused. -/
theorem refusal : Refusal := by
  have haccepted : ∀ {members text c}, Writes text (.object members) → read text = .ok c →
      ∃ fields : List (Field × Value), members = keyed fields ∧ (fields.map Prod.fst).Nodup ∧
        standard.Settles fields c := by
    intro members text c htext hread
    rw [read_of_writes htext] at hread
    have hmembers : ofMembers [] standard members = .ok c :=
      (ofTokens_object members).symm.trans hread
    obtain ⟨fields, rfl, hnodup, -⟩ := exists_keyed_of_ok hmembers
    rw [ofValue_keyed hnodup, putAll_eq_ok_iff hnodup] at hread
    exact ⟨fields, rfl, hnodup, hread⟩
  have hrefused : ∀ {fields : List (Field × Value)} {c f s nanos}, standard.Settles fields c →
      f = Field.window ∨ f = Field.maxLatency → (f, Value.scalar (.text s)) ∈ fields →
      Duration.readSigned s = some nanos → ¬ nanos < 0 := by
    intro fields c f s nanos hsettles hf hmem hsigned hnegative
    obtain ⟨d, hput, -⟩ := hsettles.given _ hmem
    rw [put_of_negative hf hsigned hnegative] at hput
    cases hput
  refine ⟨?_, ?_, ?_, ?_, ?_⟩
  · rintro members text htext ⟨m, hm, hkey⟩
    refine exists_error_of_forall_ne fun c hread => ?_
    obtain ⟨fields, rfl, -, -⟩ := haccepted htext hread
    obtain ⟨field, -, rfl⟩ := List.mem_map.mp hm
    exact hkey field.1 rfl
  · intro members text htext hrepeated
    refine exists_error_of_forall_ne fun c hread => hrepeated ?_
    obtain ⟨fields, rfl, hnodup, -⟩ := haccepted htext hread
    have hkeys : (keyed fields).map Prod.fst =
        (fields.map Prod.fst).map fun f => f.key.toList := by
      rw [keyed, List.map_map, List.map_map]
      rfl
    rw [hkeys]
    exact List.Nodup.map key_injective hnodup
  · intro elements text htext hlength
    rw [read_of_writes htext, ofValue, ofTokens_array]
    exact exists_error_of_length_lt hlength standard
  · intro members text htext f s nanos hf hmem hsigned hnegative
    refine exists_error_of_forall_ne fun c hread => ?_
    obtain ⟨fields, rfl, -, hsettles⟩ := haccepted htext hread
    obtain ⟨⟨g, v⟩, hfield, hsame⟩ := List.mem_map.mp hmem
    obtain ⟨hkey, rfl⟩ := Prod.mk.inj hsame
    obtain rfl : g = f := key_injective hkey
    exact hrefused hsettles hf hfield hsigned hnegative
  · intro elements text htext f s nanos hf hmem hsigned hnegative
    refine exists_error_of_forall_ne fun c hread => ?_
    rw [read_of_writes htext] at hread
    rcases Nat.lt_or_ge Field.all.length elements.length with hmany | hlength
    · obtain ⟨fault, herror⟩ := exists_error_of_length_lt hmany standard
      rw [ofValue, ofTokens_array, herror] at hread
      cases hread
    · rw [ofValue_array hlength, putAll_eq_ok_iff (nodup_zip_all elements)] at hread
      exact hrefused hread hf hmem hsigned hnegative

/-- All written forms of a configuration are read alike, and what is refused in one place is refused
in all. -/
theorem written_forms :
    (∀ members : List (Field × Value), (members.map Prod.fst).Nodup → Agreement members) ∧
      Refusal :=
  ⟨fun _ => agreement_of_nodup, refusal⟩

def swapped : List (Field × Value) :=
  [(.percentile, .scalar (.number ⟨false, ['0'], some ['5'], none⟩)),
    (.enabled, .scalar (.bool false))]

/-- Two fields in either order, with and without spaces, and as an array. -/
theorem written_forms_swapped :
    Agreement swapped ∧ Refusal ∧
      Writes "\x7b\"percentile\": 0.5, \"enabled\": false\x7d".toList (.object (keyed swapped)) ∧
      Writes "\x7b\"enabled\":false,\"percentile\":0.5\x7d".toList
        (.object (keyed swapped.reverse)) ∧
      Writes "[false, 0.5]".toList (.array [.scalar (.bool false),
        .scalar (.number ⟨false, ['0'], some ['5'], none⟩)]) ∧
      (read "[false, 0.5]".toList).toOption =
        some { standard with enabled := false, percentile := ⟨0x3FE0000000000000⟩ } :=
  ⟨written_forms.1 swapped (by decide), written_forms.2, by unfold Writes; decide +kernel,
    by unfold Writes; decide +kernel, by unfold Writes; decide +kernel, by decide +kernel⟩

end Forms

end RequestHedging.Config
