import Rulebook.Config.Json
import Rulebook.Proofs.JsonNumbers

/-!
# Configurations and their texts

A configuration is written with all its fields, in one order.  Texts that were written by hand leave
out what has its default, put the fields in another order and have keys of other programs between
them.  The reader takes one member after the other and sets the field that it names, so the order
could matter in two ways: a field could be set twice, and a field that is set late could be missing
when something is made of it.  Neither happens.  The reader refuses a second member for a field, and
validation waits until the whole text has been read.

So after any number of members the configuration has the new values in the fields that have been
named and the defaults in the others.  This is the invariant of `setMembers?_eq_some`.  Sizes pass
through decimal digits, and come back up to the greatest number that 64 bits hold
(`Decimal.Numeral.natural?_ofNat`).

* `Config.value`, `Config.IsSpelled`: the members that spell a configuration.
* `Config.setMembers?_eq_some`: reading members that are left to be read.
* `Config.ofText_of_isSpelled`: the text of such members.
* `Config.validate_eq_ok_iff`, `Config.validate_of_ofText`: what validation asks for, and when.
* `Config.ofText_round_trip`: all of this.
-/

namespace Rulebook.Config

open Decimal (Numeral maxWord)

variable {c : Config} {members : List (String × Json String)} {field : Field}

/-! ## Members -/

/-- The sizes are numbers that 64 bits hold. -/
structure HasWordSizes (c : Config) : Prop where
  maxRuleLength : c.maxRuleLength ≤ maxWord
  maxDepth : c.maxDepth ≤ maxWord
  cacheCapacity : c.cacheCapacity ≤ maxWord

/-- The value of a field as it is written. -/
def value (c : Config) : Field → Json String
  | .maxRuleLength => .ofNat c.maxRuleLength
  | .maxDepth => .ofNat c.maxDepth
  | .defaultConnective => .string c.defaultConnective.keyword
  | .cacheRules => .bool c.cacheRules
  | .cacheCapacity => .ofNat c.cacheCapacity

/-- The members that some of the fields are written as. -/
def membersOf (c : Config) (fields : List Field) : List (String × Json String) :=
  fields.map fun field => (field.key, c.value field)

/-- The members say a configuration.  They are those of some of its fields, in any order and with
strings under other keys among them, and a field is left out only if it has its default. -/
def IsSpelled (c : Config) (members : List (String × Json String)) : Prop :=
  ∃ (fields : List Field) (others : List (String × String)),
    fields.Nodup ∧ (∀ field ∉ fields, c.value field = Config.default.value field) ∧
      (∀ other ∈ others, Field.ofKey? other.1 = none) ∧
      members.Perm (c.membersOf fields ++ others.map fun other => (other.1, .string other.2))

/-- The fields that members name, in their order. -/
def fieldsOf (members : List (String × Json String)) : List Field :=
  members.filterMap fun member => Field.ofKey? member.1

@[simp] theorem Field.ofKey?_key (field : Field) : Field.ofKey? field.key = some field := by
  cases field <;> decide

theorem Field.mem_all (field : Field) : field ∈ Field.all := by
  cases field <;> decide

/-- A configuration is spelled as it is written. -/
theorem isSpelled_membersOf_all (c : Config) : c.IsSpelled (c.membersOf Field.all) :=
  ⟨Field.all, [], by decide, fun field h => absurd field.mem_all h, nofun, by
    rw [List.map_nil, List.append_nil]⟩

theorem fieldsOf_membersOf (c : Config) (fields : List Field) :
    fieldsOf (c.membersOf fields) = fields := by
  have hsome : (fun field : Field => Field.ofKey? field.key) = some := funext Field.ofKey?_key
  rw [fieldsOf, membersOf, List.filterMap_map]
  show fields.filterMap (fun field => Field.ofKey? field.key) = fields
  rw [hsome, List.filterMap_some]

/-- Members that spell a configuration name each field once at most, have its values and leave out
defaults. -/
theorem IsSpelled.spec (h : c.IsSpelled members) :
    (fieldsOf members).Nodup ∧
      (∀ field ∉ fieldsOf members, Config.default.value field = c.value field) ∧
      (∀ member ∈ members, ∀ field, Field.ofKey? member.1 = some field →
        member.2 = c.value field) := by
  obtain ⟨fields, others, hnodup, hdefault, hothers, hperm⟩ := h
  have hnone : fieldsOf (others.map fun other => (other.1, .string other.2)) = [] := by
    simpa [fieldsOf, List.filterMap_eq_nil_iff] using fun key s hmem => hothers (key, s) hmem
  have hfields : (fieldsOf members).Perm fields := by
    have hmap := hperm.filterMap fun member => Field.ofKey? member.1
    rwa [List.filterMap_append, ← fieldsOf, ← fieldsOf, ← fieldsOf, fieldsOf_membersOf, hnone,
      List.append_nil] at hmap
  refine ⟨hfields.nodup_iff.mpr hnodup, fun field hfield => ?_, fun member hmember field hkey => ?_⟩
  · exact (hdefault field fun hmem => hfield (hfields.mem_iff.mpr hmem)).symm
  · rcases List.mem_append.mp (hperm.mem_iff.mp hmember) with hown | hother
    · obtain ⟨own, -, rfl⟩ := List.mem_map.mp hown
      rw [Field.ofKey?_key] at hkey
      rw [Option.some.inj hkey]
    · obtain ⟨other, hmem, rfl⟩ := List.mem_map.mp hother
      rw [hothers other hmem] at hkey
      cases hkey

/-! ## Reading -/

/-- The values of its fields make up a configuration. -/
theorem eq_of_value {c' : Config} (h : ∀ field, c.value field = c'.value field) : c = c' := by
  have hsize : ∀ {m n : Nat}, Json.ofNat m = Json.ofNat n → m = n := fun heq =>
    Numeral.ofNat_injective (Json.number.inj heq)
  have hkeyword : c.defaultConnective = c'.defaultConnective := by
    have hof := congrArg Connective.ofKeyword? (Json.string.inj (h .defaultConnective))
    simpa using hof
  have hlength := hsize (h .maxRuleLength)
  have hdepth := hsize (h .maxDepth)
  have hcache := Json.bool.inj (h .cacheRules)
  have hcapacity := hsize (h .cacheCapacity)
  obtain ⟨_, _, _, _, _⟩ := c
  obtain ⟨_, _, _, _, _⟩ := c'
  simp only at hkeyword hlength hdepth hcache hcapacity
  subst hkeyword hlength hdepth hcache hcapacity
  rfl

theorem size?_ofNat {n : Nat} (h : n ≤ maxWord) : size? (.number (.ofNat n)) = some n :=
  Numeral.natural?_ofNat h

/-- Setting a field from the value that it is written as sets this field and no other. -/
theorem exists_set?_value (hc : c.HasWordSizes) (base : Config) (field : Field) :
    ∃ next, base.set? (c.value field).written field = some next ∧
      ∀ other, next.value other = if other = field then c.value other else base.value other := by
  cases field with
  | maxRuleLength =>
    refine ⟨{ base with maxRuleLength := c.maxRuleLength }, ?_, fun other => by cases other <;> rfl⟩
    show (size? (.number (.ofNat c.maxRuleLength))).map _ = _
    rw [size?_ofNat hc.maxRuleLength]
    rfl
  | maxDepth =>
    refine ⟨{ base with maxDepth := c.maxDepth }, ?_, fun other => by cases other <;> rfl⟩
    show (size? (.number (.ofNat c.maxDepth))).map _ = _
    rw [size?_ofNat hc.maxDepth]
    rfl
  | defaultConnective =>
    refine ⟨{ base with defaultConnective := c.defaultConnective }, ?_,
      fun other => by cases other <;> rfl⟩
    show (Connective.ofKeyword? c.defaultConnective.keyword).map _ = _
    rw [Connective.ofKeyword?_keyword]
    rfl
  | cacheRules =>
    exact ⟨{ base with cacheRules := c.cacheRules }, rfl, fun other => by cases other <;> rfl⟩
  | cacheCapacity =>
    refine ⟨{ base with cacheCapacity := c.cacheCapacity }, ?_, fun other => by cases other <;> rfl⟩
    show (size? (.number (.ofNat c.cacheCapacity))).map _ = _
    rw [size?_ofNat hc.cacheCapacity]
    rfl

/-- Members with the values of a configuration complete what has been read so far to this
configuration, if they name no field twice or again and all other fields are right already. -/
theorem setMembers?_eq_some (hc : c.HasWordSizes) {base : Config} {seen : List Field}
    (hvalues : ∀ member ∈ members, ∀ field, Field.ofKey? member.1 = some field →
      member.2 = c.value field)
    (hnodup : (fieldsOf members).Nodup) (hseen : ∀ field ∈ seen, field ∉ fieldsOf members)
    (hbase : ∀ field ∉ fieldsOf members, base.value field = c.value field) :
    base.setMembers? seen (Json.writtenMembers members) = some c := by
  induction members generalizing base seen with
  | nil => exact congrArg some (eq_of_value fun field => hbase field List.not_mem_nil)
  | cons member members ih =>
    obtain ⟨key, value⟩ := member
    have hrest := fun member hmember => hvalues member (List.mem_cons_of_mem _ hmember)
    rw [Json.writtenMembers, setMembers?]
    rcases hkey : Field.ofKey? key with _ | field
    · have hfields : fieldsOf ((key, value) :: members) = fieldsOf members :=
        List.filterMap_cons_none hkey
      rw [hfields] at hnodup hseen hbase
      exact ih hrest hnodup hseen hbase
    · have hfields : fieldsOf ((key, value) :: members) = field :: fieldsOf members :=
        List.filterMap_cons_some hkey
      rw [hfields] at hnodup hseen hbase
      obtain ⟨hnot, hnodup⟩ := List.nodup_cons.mp hnodup
      have hnew : field ∉ seen := fun hmem => hseen field hmem (List.mem_cons_self ..)
      obtain rfl : value = c.value field := hvalues _ (List.mem_cons_self ..) field hkey
      obtain ⟨next, hset, hnext⟩ := exists_set?_value hc base field
      simp only [if_neg hnew, hset]
      refine ih hrest hnodup (fun other hother => ?_) (fun other hother => ?_)
      · rcases List.mem_cons.mp hother with rfl | hother
        · exact hnot
        · exact fun hmem => hseen other hother (List.mem_cons_of_mem _ hmem)
      · rw [hnext]
        split
        · rfl
        · next hne => exact hbase other fun hmem => (List.mem_cons.mp hmem).elim hne hother

/-! ## Texts -/

theorem exists_ofNat_of_mem_value {n : Numeral} (h : .number n ∈ (c.value field).tokens) :
    ∃ k, n = .ofNat k := by
  cases field with
  | defaultConnective => simp [value, Json.tokens] at h
  | cacheRules => simp [value, Json.tokens] at h
  | _ => exact ⟨_, by simpa [value, Json.ofNat, Json.tokens] using h⟩

theorem IsSpelled.hasNumerals (h : c.IsSpelled members) :
    Json.HasNumerals (Json.object members).tokens := by
  obtain ⟨fields, others, -, -, -, hperm⟩ := h
  intro n hn
  obtain ⟨member, hmember, hn⟩ := Json.exists_member_of_number_mem hn
  rcases List.mem_append.mp (hperm.mem_iff.mp hmember) with hown | hother
  · obtain ⟨field, -, rfl⟩ := List.mem_map.mp hown
    obtain ⟨k, rfl⟩ := exists_ofNat_of_mem_value hn
    exact ⟨Numeral.isNumeric_ofNat k, Numeral.isJson_ofNat k⟩
  · obtain ⟨other, -, rfl⟩ := List.mem_map.mp hother
    simp [Json.tokens] at hn

/-- The text of members that spell a configuration is read as the configuration, which is then
validated. -/
theorem ofText_of_isSpelled (hc : c.HasWordSizes) (h : c.IsSpelled members) :
    ofText (Json.object members).write = (do c.validate; return c) := by
  obtain ⟨hnodup, hdefault, hvalues⟩ := h.spec
  have hread : Config.default.setMembers? [] (Json.writtenMembers members) = some c :=
    setMembers?_eq_some hc hvalues hnodup nofun hdefault
  rw [ofText, Json.write, String.toList_ofList, Json.readWritten?_writeChars h.hasNumerals,
    Option.bind_some, Json.written, ofJson?, hread]

/-! ## Validation -/

/-- A valid configuration allows rules of some length and some depth, and if it has a cache there is
room in it. -/
theorem validate_eq_ok_iff : c.validate = .ok () ↔
    0 < c.maxRuleLength ∧ 0 < c.maxDepth ∧ (c.cacheRules = true → 0 < c.cacheCapacity) := by
  rw [validate, fault?]
  by_cases hlength : c.maxRuleLength = 0
  · rw [if_pos hlength]
    exact iff_of_false nofun fun h => Nat.ne_of_gt h.1 hlength
  · by_cases hdepth : c.maxDepth = 0
    · rw [if_neg hlength, if_pos hdepth]
      exact iff_of_false nofun fun h => Nat.ne_of_gt h.2.1 hdepth
    · by_cases hcache : c.cacheRules = true ∧ c.cacheCapacity = 0
      · rw [if_neg hlength, if_neg hdepth, if_pos hcache]
        exact iff_of_false nofun fun h => Nat.ne_of_gt (h.2.2 hcache.1) hcache.2
      · rw [if_neg hlength, if_neg hdepth, if_neg hcache]
        exact iff_of_true rfl ⟨Nat.pos_of_ne_zero hlength, Nat.pos_of_ne_zero hdepth,
          fun h => Nat.pos_of_ne_zero fun hzero => hcache ⟨h, hzero⟩⟩

/-- The only errors of validation are those for a configuration. -/
theorem eq_config_of_validate {e : RuleError} (h : c.validate = .error e) :
    ∃ fault, e = .config fault := by
  rw [validate] at h
  split at h
  · next fault _ =>
    cases h
    exact ⟨fault, rfl⟩
  · cases h

/-- What has been read from a text is valid. -/
theorem validate_of_ofText {s : String} (h : ofText s = .ok c) : c.validate = .ok () := by
  unfold ofText at h
  split at h
  · obtain ⟨⟨⟩, hvalid, hresult⟩ := exists_of_bind_eq_ok h
    cases hresult
    exact hvalid
  · cases h

/-- A configuration is read back from its text if it is valid, and is refused with the error of its
validation if it is not.  The same holds of texts with the fields in another order, with strings
under unknown keys and without fields that have their default.  And no text at all is read as a
configuration that is not valid. -/
theorem ofText_round_trip :
    (∀ c : Config, c.HasWordSizes → ∀ text,
      (text = c.write ∨ ∃ members, c.IsSpelled members ∧ text = (Json.object members).write) →
        (c.validate = .ok () → ofText text = .ok c) ∧
          ∀ e, c.validate = .error e → ofText text = .error e ∧ ∃ fault, e = .config fault) ∧
      ∀ text c, ofText text = .ok c → c.validate = .ok () ∧
        0 < c.maxRuleLength ∧ 0 < c.maxDepth ∧ (c.cacheRules = true → 0 < c.cacheCapacity) := by
  refine ⟨fun c hc text htext => ?_, fun text c h => ?_⟩
  · have hread : ofText text = (do c.validate; return c) := by
      rcases htext with rfl | ⟨members, hspelled, rfl⟩
      · exact ofText_of_isSpelled hc c.isSpelled_membersOf_all
      · exact ofText_of_isSpelled hc hspelled
    refine ⟨fun hvalid => ?_, fun e he => ⟨?_, eq_config_of_validate he⟩⟩
    · rw [hread, hvalid]
      rfl
    · rw [hread, he]
      rfl
  · have hvalid := validate_of_ofText h
    exact ⟨hvalid, validate_eq_ok_iff.mp hvalid⟩

/-- The greatest size is read back, with an unknown key in front, the other fields in another order
and the depth left out.  Without a cache its capacity may be zero, and with one it may not. -/
theorem ofText_round_trip_reordered :
    let fields := [.cacheCapacity, .cacheRules, .defaultConnective, .maxRuleLength]
    let text := fun c : Config =>
      (Json.object (("note", .string "none") :: c.membersOf fields)).write
    let c : Config := ⟨maxWord, Defaults.maxDepth, .or, false, 0⟩
    let c' : Config := { c with cacheRules := true }
    ofText (text c) = .ok c ∧ ofText (text c') = .error (.config .cacheCapacity) := by
  intro fields text c c'
  have hspelled : ∀ c : Config, c.maxDepth = Defaults.maxDepth →
      c.IsSpelled (("note", .string "none") :: c.membersOf fields) := by
    intro c hdepth
    refine ⟨fields, [("note", "none")], by decide, fun field hfield => ?_, by decide,
      (List.perm_append_singleton _ _).symm⟩
    cases field with
    | maxDepth => exact congrArg Json.ofNat hdepth
    | _ => exact absurd (by decide) hfield
  have hvalid := ofText_round_trip.1 c ⟨by decide, by decide, by decide⟩ _
    (Or.inr ⟨_, hspelled c rfl, rfl⟩)
  have hinvalid := ofText_round_trip.1 c' ⟨by decide, by decide, by decide⟩ _
    (Or.inr ⟨_, hspelled c' rfl, rfl⟩)
  exact ⟨hvalid.1 rfl, (hinvalid.2 (.config .cacheCapacity) rfl).1⟩

end Rulebook.Config
