/-
This file models how the wallet's scripts read an OpenAlias record, and proves of which
records they return the values of the fields.

The record is not split into its fields. The name of a field with its equals sign is
searched in the whole record, so that it is also found at the end of a longer key and in
the value of another field, and the value is read up to the next semicolon, so that
nothing is read of a field that no semicolon ends.
-/

import LightWallet.Substrings
import LightWallet.Frontend.Strings

namespace LightWallet.Frontend.OpenAlias

open Substrings (behind)

/-- `config.openAliasPrefix`. -/
def openAliasPrefix : JsString := .ofString "xmr"

/-- What a record is read as, where nothing stands for `undefined`. -/
structure Parsed where
  address : Option JsString
  name : Option JsString
  description : Option JsString
  deriving DecidableEq

/-- The `substr` from a position to the next semicolon behind it. Without one its length is
negative, since the semicolon is then at the position -1. -/
def upToSemicolon (rest : JsString) : JsString :=
  match Substrings.indexOf [59] rest with
  | none => []
  | some length => rest.take length

/-- `parse_param`. -/
def parseParam (record name : JsString) : Option JsString :=
  match Substrings.indexOf (name ++ [61]) record with
  | none => none
  | some pos => some (upToSemicolon (record.drop (pos + (name.length + 1))))

/-- `parseOpenAliasRecord`. -/
def parseOpenAliasRecord (record : JsString) : Except String Parsed :=
  if record.take (4 + openAliasPrefix.length + 1) ≠
      JsString.ofString "oa1:" ++ openAliasPrefix ++ [32] then
    throw "Invalid OpenAlias prefix"
  else
    pure
      { address := parseParam record (.ofString "recipient_address")
        name := parseParam record (.ofString "recipient_name")
        description := parseParam record (.ofString "tx_description") }

/-! ### Records -/

/-- A field of a record. Blanks in front of it are no part of its key. -/
structure Field where
  blanks : Nat
  key : JsString
  value : JsString
  keyFree : 61 ∉ key ∧ 59 ∉ key
  valueFree : 59 ∉ value

/-- The field as it is written. -/
def Field.text (field : Field) : JsString :=
  List.replicate field.blanks 32 ++ (field.key ++ 61 :: field.value)

/-- Fields with semicolons between them, and one at the end or not. -/
def fieldsText (finalSemicolon : Bool) : List Field → JsString
  | [] => if finalSemicolon then [59] else []
  | [field] => field.text ++ if finalSemicolon then [59] else []
  | field :: next :: rest => field.text ++ 59 :: fieldsText finalSemicolon (next :: rest)

/-- A record for the prefix of the configuration. -/
structure Record where
  fields : List Field
  finalSemicolon : Bool

namespace Record

/-- The record as it is written. -/
def text (record : Record) : JsString :=
  JsString.ofString "oa1:" ++ openAliasPrefix ++ 32 ::
    fieldsText record.finalSemicolon record.fields

/-- The value of the field with the name as its key. -/
def value (record : Record) (name : JsString) : Option JsString :=
  (record.fields.find? fun field => field.key = name).map (·.value)

/-- The values of the three fields that are read. -/
def values (record : Record) : Parsed :=
  { address := record.value (.ofString "recipient_address")
    name := record.value (.ofString "recipient_name")
    description := record.value (.ofString "tx_description") }

end Record

/-- What follows the name and an equals sign in a field: its value where the key ends with the
name, else what follows them in the value. -/
def Field.mention (field : Field) (name : JsString) : Option JsString :=
  if name <:+ field.key then some field.value else behind (name ++ [61]) field.value

/-- What follows the name in the first field that mentions it is the value of the field of that
name, and it is empty or a semicolon follows it. -/
def Record.Settled (record : Record) (name : JsString) : Prop :=
  ∀ before field after reading, record.fields = before ++ field :: after →
    (∀ earlier ∈ before, earlier.mention name = none) → field.mention name = some reading →
    record.value name = some reading ∧
      (after ≠ [] ∨ record.finalSemicolon = true ∨ reading = [])

/-! ### Reading one field -/

theorem upToSemicolon_append {front : JsString} (free : 59 ∉ front) (back : JsString) :
    upToSemicolon (front ++ 59 :: back) = front := by
  unfold upToSemicolon
  rw [Substrings.indexOf_separator free]
  exact List.take_left

theorem upToSemicolon_of_notMem {text : JsString} (free : 59 ∉ text) : upToSemicolon text = [] := by
  unfold upToSemicolon
  rw [Substrings.indexOf_separator_eq_none free]

theorem parseParam_eq (record name : JsString) :
    parseParam record name = (behind (name ++ [61]) record).map upToSemicolon := by
  unfold parseParam behind
  rw [List.length_append, List.length_singleton]
  cases Substrings.indexOf (name ++ [61]) record with
  | none => rfl
  | some found => rfl

/-- A name that is searched has none of the characters that a record is put together with. -/
structure IsName (name : JsString) : Prop where
  nonempty : name ≠ []
  noEquals : 61 ∉ name
  noSemicolon : 59 ∉ name
  noBlank : 32 ∉ name

theorem IsName.pattern_ne_nil {name : JsString} (isName : IsName name) : name ++ [61] ≠ [] :=
  List.append_ne_nil_of_left_ne_nil isName.nonempty _

theorem notMem_pattern {name : JsString} {separator : UInt16} (absent : separator ∉ name)
    (other : separator ≠ 61) : separator ∉ name ++ [61] := by
  intro member
  rcases List.mem_append.mp member with inName | equals
  · exact absent inName
  · exact other (List.mem_singleton.mp equals)

theorem behind_fieldText {name : JsString} (isName : IsName name) (field : Field) :
    behind (name ++ [61]) field.text = field.mention name := by
  unfold Field.text Field.mention
  rw [Substrings.behind_replicate_append isName.pattern_ne_nil
      (notMem_pattern isName.noBlank (by decide)),
    Substrings.behind_name isName.nonempty isName.noEquals field.keyFree.1]

theorem Field.semicolon_notMem_mention {field : Field} {name reading : JsString}
    (mentioned : field.mention name = some reading) : 59 ∉ reading := by
  unfold Field.mention at mentioned
  by_cases ends : name <:+ field.key
  · rw [if_pos ends] at mentioned
    exact Option.some.inj mentioned ▸ field.valueFree
  · rw [if_neg ends] at mentioned
    exact fun member => field.valueFree ((Substrings.behind_suffix mentioned).subset member)

/-- A field mentions its own key. -/
theorem Field.mention_key (field : Field) : field.mention field.key = some field.value :=
  if_pos (List.suffix_refl _)

/-! ### Reading all fields -/

/-- What is read of the fields: what the first one that mentions the name has there, if a
semicolon follows. -/
def readFields (name : JsString) (finalSemicolon : Bool) : List Field → Option JsString
  | [] => none
  | field :: rest =>
    (field.mention name).elim (readFields name finalSemicolon rest)
      fun reading => some (if rest ≠ [] ∨ finalSemicolon = true then reading else [])

theorem fieldsText_cons (finalSemicolon : Bool) (field : Field) (rest : List Field) :
    fieldsText finalSemicolon (field :: rest) =
      field.text ++ if rest ≠ [] ∨ finalSemicolon = true then
        59 :: (if rest ≠ [] then fieldsText finalSemicolon rest else []) else [] := by
  cases rest with
  | nil => cases finalSemicolon <;> rfl
  | cons next rest => rfl

theorem behind_fieldsText {name : JsString} (isName : IsName name) (finalSemicolon : Bool)
    (fields : List Field) :
    (behind (name ++ [61]) (fieldsText finalSemicolon fields)).map upToSemicolon =
      readFields name finalSemicolon fields := by
  have pattern := isName.pattern_ne_nil
  have noSemicolon := notMem_pattern isName.noSemicolon (show (59 : UInt16) ≠ 61 by decide)
  induction fields with
  | nil =>
    have nothing : behind (name ++ [61]) (fieldsText finalSemicolon []) = none :=
      Substrings.behind_eq_none_of_notMem (List.mem_append_right name List.mem_cons_self)
        (by cases finalSemicolon <;> decide)
    rw [nothing]
    rfl
  | cons field rest inductionHypothesis =>
    rw [fieldsText_cons, readFields]
    by_cases ended : rest ≠ [] ∨ finalSemicolon = true
    · have others : (behind (name ++ [61])
          (if rest ≠ [] then fieldsText finalSemicolon rest else [])).map upToSemicolon =
          readFields name finalSemicolon rest := by
        by_cases more : rest ≠ []
        · rw [if_pos more, inductionHypothesis]
        · rw [if_neg more, Substrings.behind_nil pattern, not_not.mp more]
          rfl
      rw [if_pos ended, Substrings.behind_append_separator pattern noSemicolon,
        behind_fieldText isName]
      cases mentioned : field.mention name with
      | none => exact others
      | some reading =>
        rw [Option.elim_some, Option.elim_some, Option.map_some, if_pos ended,
          upToSemicolon_append (Field.semicolon_notMem_mention mentioned)]
    · have last : rest = [] := not_not.mp (not_or.mp ended).1
      rw [if_neg ended, List.append_nil, behind_fieldText isName]
      cases mentioned : field.mention name with
      | none =>
        rw [last]
        rfl
      | some reading =>
        rw [Option.map_some, Option.elim_some, if_neg ended,
          upToSemicolon_of_notMem (Field.semicolon_notMem_mention mentioned)]

theorem parseParam_text {name : JsString} (isName : IsName name) (record : Record) :
    parseParam record.text name = readFields name record.finalSemicolon record.fields := by
  have noBlank := notMem_pattern isName.noBlank (show (32 : UInt16) ≠ 61 by decide)
  have nothing : behind (name ++ [61]) (JsString.ofString "oa1:" ++ openAliasPrefix) = none :=
    Substrings.behind_eq_none_of_notMem (List.mem_append_right name List.mem_cons_self)
      (show (61 : UInt16) ∉ _ by decide)
  rw [parseParam_eq]
  unfold Record.text
  rw [Substrings.behind_append_separator isName.pattern_ne_nil noBlank, nothing, Option.elim_none,
    behind_fieldsText isName]

theorem parseOpenAliasRecord_text (record : Record) :
    parseOpenAliasRecord record.text =
      .ok
        { address := parseParam record.text (.ofString "recipient_address")
          name := parseParam record.text (.ofString "recipient_name")
          description := parseParam record.text (.ofString "tx_description") } := by
  have starts : record.text.take (4 + openAliasPrefix.length + 1) =
      JsString.ofString "oa1:" ++ openAliasPrefix ++ [32] := by
    have length : 4 + openAliasPrefix.length + 1 =
        (JsString.ofString "oa1:" ++ openAliasPrefix ++ [32]).length := by decide
    unfold Record.text
    rw [List.append_cons, length]
    exact List.take_left
  exact if_neg (not_not.mpr starts)

/-! ### The values of the fields -/

theorem mention_value {record : Record} {name value : JsString}
    (found : record.value name = some value) :
    ∃ own ∈ record.fields, own.mention name = some value := by
  obtain ⟨own, first, rfl⟩ := Option.map_eq_some_iff.mp found
  have named := List.find?_some first
  rw [decide_eq_true_iff] at named
  exact ⟨own, List.mem_of_find?_eq_some first, named ▸ own.mention_key⟩

theorem readFields_of_first {name : JsString} {finalSemicolon : Bool} {before after : List Field}
    {field : Field} {reading : JsString}
    (unmentioned : ∀ earlier ∈ before, earlier.mention name = none)
    (mentioned : field.mention name = some reading) :
    readFields name finalSemicolon (before ++ field :: after) =
      some (if after ≠ [] ∨ finalSemicolon = true then reading else []) := by
  induction before with
  | nil => rw [List.nil_append, readFields, mentioned, Option.elim_some]
  | cons earlier before inductionHypothesis =>
    rw [List.cons_append, readFields, unmentioned earlier List.mem_cons_self, Option.elim_none]
    exact inductionHypothesis fun other member =>
      unmentioned other (List.mem_cons_of_mem _ member)

theorem readFields_eq_none {name : JsString} {fields : List Field}
    (unmentioned : ∀ field ∈ fields, field.mention name = none) (finalSemicolon : Bool) :
    readFields name finalSemicolon fields = none := by
  induction fields with
  | nil => rfl
  | cons field rest inductionHypothesis =>
    rw [readFields, unmentioned field List.mem_cons_self, Option.elim_none]
    exact inductionHypothesis fun other member =>
      unmentioned other (List.mem_cons_of_mem _ member)

theorem exists_first_mention (name : JsString) (fields : List Field) :
    (∀ field ∈ fields, field.mention name = none) ∨
      ∃ before field after reading, fields = before ++ field :: after ∧
        (∀ earlier ∈ before, earlier.mention name = none) ∧
        field.mention name = some reading := by
  induction fields with
  | nil => exact .inl (by simp)
  | cons field rest inductionHypothesis =>
    cases mentioned : field.mention name with
    | some reading => exact .inr ⟨[], field, rest, reading, rfl, by simp, mentioned⟩
    | none =>
      rcases inductionHypothesis with nothing | ⟨before, first, after, reading, rfl, none, found⟩
      · exact .inl (List.forall_mem_cons.mpr ⟨mentioned, nothing⟩)
      · exact .inr ⟨field :: before, first, after, reading, rfl,
          List.forall_mem_cons.mpr ⟨mentioned, none⟩, found⟩

/-- The value of a field is what is read of its name exactly where the name is settled. -/
theorem readFields_eq_value_iff (record : Record) (name : JsString) :
    readFields name record.finalSemicolon record.fields = record.value name ↔
      record.Settled name := by
  refine ⟨fun same before field after reading fields unmentioned mentioned => ?_,
    fun settled => ?_⟩
  · rw [fields, readFields_of_first unmentioned mentioned] at same
    by_cases ended : after ≠ [] ∨ record.finalSemicolon = true
    · rw [if_pos ended] at same
      exact ⟨same.symm, or_assoc.mp (.inl ended)⟩
    · rw [if_neg ended] at same
      -- The field is the last one, so that it is the own field of the name.
      obtain ⟨own, member, ownMention⟩ := mention_value same.symm
      rw [fields, not_not.mp (not_or.mp ended).1, List.mem_append, List.mem_singleton] at member
      have last : own = field := by
        refine member.resolve_left fun earlier => ?_
        rw [unmentioned own earlier] at ownMention
        cases ownMention
      have nothing : [] = reading :=
        Option.some.inj ((last ▸ ownMention).symm.trans mentioned)
      exact ⟨nothing ▸ same.symm, .inr (.inr nothing.symm)⟩
  · rcases exists_first_mention name record.fields with nothing |
      ⟨before, field, after, reading, fields, unmentioned, mentioned⟩
    · have absent : record.value name = none := by
        refine Option.eq_none_iff_forall_ne_some.mpr fun value found => ?_
        obtain ⟨own, member, mentioned⟩ := mention_value found
        rw [nothing own member] at mentioned
        cases mentioned
      rw [readFields_eq_none nothing, absent]
    · obtain ⟨found, ended⟩ := settled before field after reading fields unmentioned mentioned
      rw [fields, readFields_of_first unmentioned mentioned, found]
      by_cases semicolon : after ≠ [] ∨ record.finalSemicolon = true
      · rw [if_pos semicolon]
      · rw [if_neg semicolon, (or_assoc.mpr ended).resolve_left semicolon]

/-- The names that a record is searched for. -/
def names : List JsString :=
  [.ofString "recipient_address", .ofString "recipient_name", .ofString "tx_description"]

theorem isName_of_mem {name : JsString} (member : name ∈ names) : IsName name := by
  have all : ∀ name ∈ names, name ≠ [] ∧ 61 ∉ name ∧ 59 ∉ name ∧ 32 ∉ name := by decide
  obtain ⟨nonempty, noEquals, noSemicolon, noBlank⟩ := all name member
  exact ⟨nonempty, noEquals, noSemicolon, noBlank⟩

/-- A record is read as the values of its fields exactly where all three names are settled. -/
theorem parseOpenAliasRecord_eq_iff (record : Record) :
    parseOpenAliasRecord record.text = .ok record.values ↔
      ∀ name ∈ names, record.Settled name := by
  have each : ∀ name ∈ names,
      (parseParam record.text name = record.value name ↔ record.Settled name) := by
    intro name member
    rw [parseParam_text (isName_of_mem member)]
    exact readFields_eq_value_iff record name
  rw [parseOpenAliasRecord_text, Except.ok.injEq, Record.values, Parsed.mk.injEq]
  unfold names at each ⊢
  rw [List.forall_mem_cons, List.forall_mem_cons, List.forall_mem_singleton] at each ⊢
  rw [each.1, each.2.1, each.2.2]

/-- The records with keys of their own, ended by a semicolon or not, are read as the values of
their fields. -/
def RecordsExact (finalSemicolon : Bool) : Prop :=
  ∀ fields : List Field, (fields.map (·.key)).Nodup →
    parseOpenAliasRecord (Record.text ⟨fields, finalSemicolon⟩) =
      .ok (Record.values ⟨fields, finalSemicolon⟩)

/-- `recipient_address=4x`. -/
def addressField : Field :=
  ⟨0, .ofString "recipient_address", .ofString "4x", by decide, by decide⟩

/-- `note=recipient_address=7y`. -/
def noteField : Field :=
  ⟨0, .ofString "note", .ofString "recipient_address=7y", by decide, by decide⟩

/-- Nothing is read of a last field without a semicolon, and the address is read of a note that
has its name. -/
theorem not_recordsExact : ¬ RecordsExact false ∧ ¬ RecordsExact true := by
  refine ⟨fun exactly => ?_, fun exactly => ?_⟩
  · exact absurd (exactly [addressField] (by decide)) (by decide)
  · exact absurd (exactly [noteField, addressField] (by decide)) (by decide)

end LightWallet.Frontend.OpenAlias
