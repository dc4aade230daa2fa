import Mathlib.Data.List.TakeWhile
import Bulla.Platform.BootCpus
import Bulla.Rust.Numeral

/-!
# What the runtime is told from outside

`run` asks the firmware configuration device which processor is to fail, and whether to reboot at
the end.  The device has items, and a directory of them that `fw_cfg_find` reads.  The whole
directory is read, so the last entry of a name counts, and an entry of that name with a bad size is
refused wherever it stands.
-/

namespace Bulla.Platform

open Rust Outcome

/-- The items of the device, and what has not been read of the one that is selected. -/
structure FwCfg where
  items : UInt16 → List UInt8
  unread : List UInt8

/-- `PowerAction`. -/
inductive PowerAction where
  | powerOff
  | reboot
  deriving DecidableEq, Repr

namespace FwCfg

/-- `pio_write16(0x510, selector)`. -/
def select (selector : UInt16) : Call FwCfg PostFirmwareError Unit :=
  modify fun self => { self with unread := self.items selector }

/-- `pio_read8(0x511)`.  The device gives zeros behind the end of an item. -/
def pioRead8 : Call FwCfg PostFirmwareError UInt8 :=
  modifyGet fun self => (self.unread.headD 0, { self with unread := self.unread.tail })

/-- A loop over `pio_read8(0x511)`. -/
def readBytes : ℕ → Call FwCfg PostFirmwareError (List UInt8)
  | 0 => return []
  | count + 1 => do
      let byte ← pioRead8
      let bytes ← readBytes count
      return byte :: bytes

/-- `fw_cfg_read_be16`. -/
def readBe16 : Call FwCfg PostFirmwareError UInt16 := do
  let bytes ← readBytes 2
  return .ofNat (fromBeBytes bytes)

/-- `fw_cfg_read_be32`. -/
def readBe32 : Call FwCfg PostFirmwareError UInt32 := do
  let bytes ← readBytes 4
  return .ofNat (fromBeBytes bytes)

/-- The loop of `fw_cfg_find`. -/
def findEntry (nameToFind : List UInt8) : ℕ → Option (UInt16 × UInt64) →
    Call FwCfg PostFirmwareError (Option (UInt16 × UInt64))
  | 0, selected => return selected
  | count + 1, selected => do
      let size ← readBe32
      let selector ← readBe16
      let _reserved ← readBe16
      let name ← readBytes 56
      if name.takeWhile (· ≠ 0) = nameToFind then
        rejectIf (size = 0 ∨ size > 56) PostFirmwareError.injection
        findEntry nameToFind count (some (selector, size.toUInt64))
      else findEntry nameToFind count selected

/-- `fw_cfg_find`. -/
def find (nameToFind : List UInt8) :
    Call FwCfg PostFirmwareError (Option (UInt16 × UInt64)) := do
  select 0x19
  let count ← readBe32
  rejectIf (count > 1024) PostFirmwareError.injection
  findEntry nameToFind count.toNat none

/-- Ends a line: zero or a line feed. -/
def isEnd (byte : UInt8) : Bool := byte = 0 || byte = 10

/-- `u8::is_ascii_digit`. -/
def isAsciiDigit (byte : UInt8) : Bool := 48 ≤ byte && byte ≤ 57

/-- The loop of `fw_cfg_failure_apic`, with the number and the count of its digits so far. -/
def readDigits : ℕ → UInt32 → ℕ → Call FwCfg PostFirmwareError (UInt32 × ℕ)
  | 0, value, digits => return (value, digits)
  | size + 1, value, digits => do
      let byte ← pioRead8
      if isEnd byte then return (value, digits)
      else
        rejectIf (¬isAsciiDigit byte) PostFirmwareError.injection
        let next := (checkedMul32 value 10).bind fun current =>
          checkedAdd32 current (byte - 48).toUInt32
        let value ← okOr next PostFirmwareError.injection
        readDigits size value (digits + 1)

def ascii (text : List Char) : List UInt8 := text.map fun letter => .ofNat letter.toNat

/-- The name of the item for `fw_cfg_failure_apic`. -/
def failAp : List UInt8 := ascii ['o', 'p', 't', '/', 't', 'h', 'e', 'r', 'm', 'i', 't', 'e', '/',
  'f', 'a', 'i', 'l', '-', 'a', 'p']

/-- The name of the item for `fw_cfg_power_action`. -/
def power : List UInt8 := ascii ['o', 'p', 't', '/', 't', 'h', 'e', 'r', 'm', 'i', 't', 'e', '/',
  'p', 'o', 'w', 'e', 'r']

/-- `fw_cfg_failure_apic`. -/
def failureApic : Call FwCfg PostFirmwareError (Option UInt32) := do
  match ← find failAp with
  | none => return none
  | some (selector, size) =>
      rejectIf (size > 10) PostFirmwareError.injection
      select selector
      let (value, digits) ← readDigits size.toNat 0 0
      rejectIf (digits = 0) PostFirmwareError.injection
      return some value

def poweroffText : List UInt8 := ascii ['p', 'o', 'w', 'e', 'r', 'o', 'f', 'f']

def rebootText : List UInt8 := ascii ['r', 'e', 'b', 'o', 'o', 't']

/-- The comparison at the end of `fw_cfg_power_action`. -/
def powerActionOf (text : List UInt8) : Outcome PostFirmwareError PowerAction :=
  if text = rebootText then return .reboot
  else if text = poweroffText then return .powerOff
  else err .injection

/-- `fw_cfg_power_action`. -/
def powerAction : Call FwCfg PostFirmwareError PowerAction := do
  match ← find power with
  | none => return .powerOff
  | some (selector, size) =>
      rejectIf (size > 8) PostFirmwareError.injection
      select selector
      let bytes ← readBytes size.toNat
      let value := bytes ++ List.replicate (8 - size.toNat) 0
      let last := (value.findIdx? isEnd).getD size.toNat
      powerActionOf (value.take last)

section Reads

variable {self : FwCfg}

/-- The first bytes of an item, with zeros behind its end. -/
def padded (count : ℕ) (bytes : List UInt8) : List UInt8 :=
  (bytes ++ List.replicate count 0).take count

theorem padded_succ (count : ℕ) (bytes : List UInt8) :
    padded (count + 1) bytes = bytes.headD 0 :: padded count bytes.tail := by
  cases bytes with
  | nil => simp [padded, List.replicate_succ]
  | cons byte bytes =>
      have enough : count ≤ (bytes ++ List.replicate count (0 : UInt8)).length := by simp
      rw [padded, List.replicate_succ', ← List.append_assoc, List.cons_append, List.cons_append,
        List.take_succ_cons, List.take_append_of_le_length enough]
      rfl

theorem padded_append {count : ℕ} {bytes : List UInt8} (length_eq : bytes.length = count)
    (rest : List UInt8) : padded count (bytes ++ rest) = bytes := by
  rw [padded, List.append_assoc, ← length_eq, List.take_left']
  rfl

@[simp] theorem select_apply (selector : UInt16) :
    select selector self = (.ok (), { self with unread := self.items selector }) := rfl

@[simp] theorem pioRead8_apply :
    pioRead8 self = (.ok (self.unread.headD 0), { self with unread := self.unread.tail }) := rfl

theorem readBytes_apply (count : ℕ) :
    readBytes count self =
      (.ok (padded count self.unread), { self with unread := self.unread.drop count }) := by
  induction count generalizing self with
  | zero => simp [readBytes, padded]
  | succ count induction =>
      rw [readBytes, Call.bind_apply, pioRead8_apply]
      simp only [Call.bind_apply, induction, Call.pure_apply]
      rw [padded_succ, List.drop_tail]

section Front

variable {items : UInt16 → List UInt8} (rest : List UInt8)

theorem readBytes_append {count : ℕ} {bytes : List UInt8} (length_eq : bytes.length = count) :
    readBytes count ⟨items, bytes ++ rest⟩ = (.ok bytes, ⟨items, rest⟩) := by
  rw [readBytes_apply, padded_append length_eq, List.drop_left' length_eq]

theorem readBe16_append (word : UInt16) :
    readBe16 ⟨items, beBytes 2 word.toNat ++ rest⟩ = (.ok word, ⟨items, rest⟩) := by
  rw [readBe16, Call.bind_apply, readBytes_append rest (length_beBytes _ _)]
  simp only [Call.pure_apply]
  rw [fromBeBytes_beBytes word.toNat_lt, UInt16.ofNat_toNat]

theorem readBe32_append (word : UInt32) :
    readBe32 ⟨items, beBytes 4 word.toNat ++ rest⟩ = (.ok word, ⟨items, rest⟩) := by
  rw [readBe32, Call.bind_apply, readBytes_append rest (length_beBytes _ _)]
  simp only [Call.pure_apply]
  rw [fromBeBytes_beBytes word.toNat_lt, UInt32.ofNat_toNat]

end Front

end Reads

/-- An entry of the directory. -/
structure Entry where
  size : UInt32
  selector : UInt16
  reserved : UInt16
  name : List UInt8
  short : name.length ≤ 56
  plain : 0 ∉ name

namespace Entry

variable (entry : Entry)

/-- The bytes of an entry; the name is filled up with zeros. -/
def encode : List UInt8 :=
  beBytes 4 entry.size.toNat ++ (beBytes 2 entry.selector.toNat ++
    (beBytes 2 entry.reserved.toNat ++
      (entry.name ++ List.replicate (56 - entry.name.length) 0)))

/-- What `fw_cfg_find` returns for an entry. -/
def found : UInt16 × UInt64 := (entry.selector, entry.size.toUInt64)

/-- The sizes that `fw_cfg_find` accepts. -/
def Sized : Prop := entry.size ≠ 0 ∧ entry.size ≤ 56

instance : Decidable entry.Sized := inferInstanceAs (Decidable (_ ∧ _))

theorem takeWhile_name :
    (entry.name ++ List.replicate (56 - entry.name.length) 0).takeWhile (· ≠ 0) = entry.name := by
  have nonzero : ∀ byte ∈ entry.name, decide (byte ≠ 0) = true := by
    intro byte member
    rw [decide_eq_true_eq]
    rintro rfl
    exact entry.plain member
  rw [List.takeWhile_append_of_pos nonzero]
  cases 56 - entry.name.length with
  | zero => simp
  | succ count => simp [List.replicate_succ]

end Entry

/-- The item with the directory: the number of the entries and the entries. -/
def encode (entries : List Entry) : List UInt8 :=
  beBytes 4 entries.length ++ entries.flatMap Entry.encode

/-- The entries of a name. -/
def named (name : List UInt8) (entries : List Entry) : List Entry :=
  entries.filter fun entry => entry.name = name

/-- What a directory says about a name: the last entry counts, but none may have a bad size. -/
def lookup (name : List UInt8) (entries : List Entry) :
    Outcome PostFirmwareError (Option (UInt16 × UInt64)) :=
  if ∀ entry ∈ named name entries, entry.Sized then
    .ok ((named name entries).getLast?.map Entry.found)
  else .err .injection

section Find

variable {items : UInt16 → List UInt8} {name : List UInt8} (rest : List UInt8)

/-- One round of the loop. -/
theorem findEntry_succ (entry : Entry) (count : ℕ) (selected : Option (UInt16 × UInt64)) :
    findEntry name (count + 1) selected ⟨items, entry.encode ++ rest⟩ =
      if entry.name = name then
        if entry.Sized then findEntry name count (some entry.found) ⟨items, rest⟩
        else (.err .injection, ⟨items, rest⟩)
      else findEntry name count selected ⟨items, rest⟩ := by
  have length_eq :
      (entry.name ++ List.replicate (56 - entry.name.length) (0 : UInt8)).length = 56 := by
    have short := entry.short
    simp
    omega
  rw [findEntry, Entry.encode, List.append_assoc, List.append_assoc, List.append_assoc]
  simp only [Call.bind_apply, readBe32_append, readBe16_append, readBytes_append rest length_eq,
    entry.takeWhile_name]
  split
  · rename_i same
    by_cases sized : entry.Sized
    · have accepted : ¬(entry.size = 0 ∨ entry.size > 56) := by
        rintro (zero | large)
        · exact sized.1 zero
        · exact UInt32.not_le.mpr large sized.2
      simp [Call.bind_apply, rejectIf, accepted, sized, Entry.found]
    · have refused : entry.size = 0 ∨ entry.size > 56 := by
        by_contra neither
        rw [not_or] at neither
        exact sized ⟨neither.1, UInt32.not_lt.mp neither.2⟩
      simp [Call.bind_apply, rejectIf, refused, sized]
  · rfl

/-- The loop: the last entry of the name replaces what was selected before. -/
theorem findEntry_entries (entries : List Entry) (selected : Option (UInt16 × UInt64)) :
    (findEntry name entries.length selected ⟨items, entries.flatMap Entry.encode ++ rest⟩).1 =
        (if ∀ entry ∈ named name entries, entry.Sized then
          .ok (((named name entries).getLast?.map Entry.found).or selected)
        else .err .injection) ∧
      (findEntry name entries.length selected
        ⟨items, entries.flatMap Entry.encode ++ rest⟩).2.items = items := by
  induction entries generalizing selected with
  | nil => simp [findEntry, named]
  | cons entry entries induction =>
      rw [List.length_cons, List.flatMap_cons, List.append_assoc, findEntry_succ]
      by_cases same : entry.name = name
      · have named_eq : named name (entry :: entries) = entry :: named name entries :=
          List.filter_cons_of_pos (by simp [same])
        rw [if_pos same, named_eq, List.getLast?_cons]
        by_cases sized : entry.Sized
        · -- This entry stays selected only if no later one has the name.
          rw [if_pos sized, (induction _).1, (induction _).2]
          simp only [List.forall_mem_cons, sized, true_and, and_true]
          cases (named name entries).getLast? <;> rfl
        · simp [sized]
      · have named_eq : named name (entry :: entries) = named name entries :=
          List.filter_cons_of_neg (by simp [same])
        rw [if_neg same, named_eq]
        exact induction selected

theorem readBe32_length {count : ℕ} (fits : count < 2 ^ 32) :
    readBe32 ⟨items, beBytes 4 count ++ rest⟩ = (.ok (.ofNat count), ⟨items, rest⟩) := by
  have read : readBe32 ⟨items, beBytes 4 (UInt32.ofNat count).toNat ++ rest⟩ = _ :=
    readBe32_append rest (.ofNat count)
  rwa [UInt32.toNat_ofNat_of_lt' fits] at read

/-- `fw_cfg_find` on a device with a directory. -/
theorem find_apply {self : FwCfg} {entries : List Entry} (fits : entries.length < 2 ^ 32)
    (listed : self.items 0x19 = encode entries ++ rest) :
    (find name self).1 =
        (if entries.length ≤ 1024 then lookup name entries else .err .injection) ∧
      (find name self).2.items = self.items := by
  have count_eq : (UInt32.ofNat entries.length).toNat = entries.length :=
    UInt32.toNat_ofNat_of_lt' fits
  rw [find, Call.bind_apply, select_apply]
  simp only [listed, encode, List.append_assoc]
  rw [Call.bind_apply, readBe32_length _ fits]
  by_cases few : entries.length ≤ 1024
  · have accepted : ¬UInt32.ofNat entries.length > 1024 := by
      rw [gt_iff_lt, UInt32.lt_iff_toNat_lt, count_eq]
      exact Nat.not_lt.mpr few
    obtain ⟨outcome, kept⟩ : (findEntry name entries.length none
        ⟨self.items, entries.flatMap Entry.encode ++ rest⟩).1 = _ ∧ _ :=
      findEntry_entries rest entries none
    simp only [Call.bind_apply, Call.lift_apply, rejectIf, accepted, if_false, count_eq, outcome,
      kept, few, if_true, Option.or_none, lookup, and_self]
  · have refused : UInt32.ofNat entries.length > 1024 := by
      rw [gt_iff_lt, UInt32.lt_iff_toNat_lt, count_eq]
      exact Nat.lt_of_not_le few
    simp [Call.bind_apply, rejectIf, refused, few]

end Find

section Lines

/-- The bytes of an item up to the end of its first line. -/
def line (size : ℕ) (bytes : List UInt8) : List UInt8 :=
  (padded size bytes).takeWhile fun byte => !isEnd byte

def digit (byte : UInt8) : ℕ := byte.toNat - 48

/-- What a text stands for in decimal notation. -/
def decimal (text : List UInt8) : ℕ := positional 10 0 (text.map digit)

theorem line_succ (size : ℕ) (bytes : List UInt8) :
    line (size + 1) bytes =
      if isEnd (bytes.headD 0) then [] else bytes.headD 0 :: line size bytes.tail := by
  rw [line, padded_succ, List.takeWhile_cons]
  cases isEnd (bytes.headD 0) <;> rfl

/-- One more digit, if the number still fits. -/
theorem checked_digit {byte : UInt8} (valid : isAsciiDigit byte = true) (value : UInt32) :
    ((checkedMul32 value 10).bind fun current => checkedAdd32 current (byte - 48).toUInt32) =
      if 10 * value.toNat + digit byte < 2 ^ 32 then some (.ofNat (10 * value.toNat + digit byte))
      else none := by
  simp only [isAsciiDigit, Bool.and_eq_true, decide_eq_true_eq] at valid
  have digit_eq : (byte - 48).toUInt32.toNat = digit byte := by
    rw [UInt8.toNat_toUInt32, UInt8.toNat_sub_of_le _ _ valid.1]
    rfl
  have ten : (10 : UInt32).toNat = 10 := rfl
  unfold checkedMul32
  rw [ten]
  by_cases product : value.toNat * 10 < 2 ^ 32
  · have product_eq : (value * 10).toNat = 10 * value.toNat := by
      rw [UInt32.toNat_mul, ten, Nat.mod_eq_of_lt product, Nat.mul_comm]
    rw [if_pos product, Option.bind_some, checkedAdd32, product_eq, digit_eq]
    split
    · rename_i sum
      rw [Option.some_inj, ← UInt32.toNat_inj, UInt32.toNat_add, product_eq, digit_eq,
        UInt32.toNat_ofNat_of_lt' sum, Nat.mod_eq_of_lt sum]
    · rfl
  · -- The product alone is too large.
    rw [if_neg product, if_neg (by omega)]
    rfl

/-- The loop over the digits. -/
theorem readDigits_apply (size : ℕ) (value : UInt32) (digits : ℕ) (self : FwCfg) :
    (readDigits size value digits self).1 =
      if (line size self.unread).all isAsciiDigit = true ∧
          positional 10 value.toNat ((line size self.unread).map digit) < 2 ^ 32 then
        .ok (.ofNat (positional 10 value.toNat ((line size self.unread).map digit)),
          digits + (line size self.unread).length)
      else .err .injection := by
  induction size generalizing value digits self with
  | zero =>
      have empty : line 0 self.unread = [] := by simp [line, padded]
      rw [empty]
      simp [readDigits, value.toNat_lt]
  | succ size induction =>
      rw [readDigits, Call.bind_apply, pioRead8_apply, line_succ]
      simp only
      cases ends : isEnd (self.unread.headD 0) with
      | true => simp [value.toNat_lt]
      | false =>
          simp only [Bool.false_eq_true, if_false]
          by_cases valid : isAsciiDigit (self.unread.headD 0) = true
          · have larger : 10 * value.toNat + digit (self.unread.headD 0) ≤ positional 10 _
              ((line size self.unread.tail).map digit) := le_positional (by decide) _
            simp only [Call.bind_apply, Call.lift_apply, rejectIf, valid, not_true_eq_false,
              if_false, checked_digit valid, List.all_cons, Bool.true_and, List.map_cons,
              positional_cons, List.length_cons]
            by_cases fits : 10 * value.toNat + digit (self.unread.headD 0) < 2 ^ 32
            · simp only [if_pos fits, okOr, induction, UInt32.toNat_ofNat_of_lt' fits,
                Nat.add_assoc, Nat.add_comm 1]
            · -- The number only grows, so what does not fit here does not fit at the end.
              have overflows : ¬positional 10 (10 * value.toNat + digit (self.unread.headD 0))
                  ((line size self.unread.tail).map digit) < 2 ^ 32 := by omega
              simp only [if_neg fits, okOr, overflows, and_false, if_false]
          · simp only [Call.bind_apply, Call.lift_apply, rejectIf, valid, Bool.false_eq_true,
              not_false_eq_true, if_true, List.all_cons, Bool.false_and, false_and, if_false]

theorem take_findIdx {bytes : List UInt8} {otherwise : ℕ}
    (whole : (∀ byte ∈ bytes, isEnd byte = false) → otherwise = bytes.length) :
    bytes.take ((bytes.findIdx? isEnd).getD otherwise) =
      bytes.takeWhile fun byte => !isEnd byte := by
  cases place : bytes.findIdx? isEnd with
  | some index =>
      obtain ⟨_, first⟩ := List.findIdx?_eq_some_iff_findIdx_eq.mp place
      rw [List.takeWhile_eq_take_findIdx_not]
      simp only [Bool.not_not, first, Option.getD_some]
  | none =>
      have endless := List.findIdx?_eq_none_iff.mp place
      rw [Option.getD_none, whole endless, List.take_length, eq_comm, List.takeWhile_eq_self_iff]
      intro byte member
      rw [endless byte member]
      rfl

theorem length_padded (count : ℕ) (bytes : List UInt8) : (padded count bytes).length = count := by
  simp [padded]

/-- The line that `fw_cfg_power_action` finds in its array. -/
theorem take_array {size : ℕ} (small : size ≤ 8) (bytes : List UInt8) :
    (padded size bytes ++ List.replicate (8 - size) 0).take
        (((padded size bytes ++ List.replicate (8 - size) 0).findIdx? isEnd).getD size) =
      line size bytes := by
  have ends : (List.replicate (8 - size) 0).takeWhile (fun byte => !isEnd byte) = [] := by
    cases 8 - size with
    | zero => rfl
    | succ count => rfl
  rw [take_findIdx, line, List.takeWhile_append, ends, List.append_nil]
  · split
    · rename_i all
      exact (List.IsPrefix.eq_of_length (List.takeWhile_prefix _) all).symm
    · rfl
  · -- Without an end there is no room behind the item.
    intro endless
    rw [List.length_append, length_padded, List.length_replicate]
    by_contra room
    have zero : (0 : UInt8) ∈ padded size bytes ++ List.replicate (8 - size) 0 :=
      List.mem_append_right _ (List.mem_replicate.mpr ⟨by omega, rfl⟩)
    cases endless 0 zero

end Lines

section Items

variable {self : FwCfg} {entries : List Entry} {rest : List UInt8}

/-- The number that a line stands for. -/
def numeral (text : List UInt8) : Outcome PostFirmwareError (Option UInt32) :=
  if text ≠ [] ∧ text.all isAsciiDigit = true ∧ decimal text < 2 ^ 32 then
    .ok (some (.ofNat (decimal text)))
  else .err .injection

/-- What follows `fw_cfg_find` may rely on what the directory says, with the items as they were. -/
theorem find_bind {α : Type} {name : List UInt8} (fits : entries.length < 2 ^ 32)
    (listed : self.items 0x19 = encode entries ++ rest)
    {next : Option (UInt16 × UInt64) → Call FwCfg PostFirmwareError α}
    {answer : Option (UInt16 × UInt64) → Outcome PostFirmwareError α}
    (answers : ∀ selected after, after.items = self.items →
      (next selected after).1 = answer selected) :
    ((find name >>= next) self).1 =
      if entries.length ≤ 1024 then lookup name entries >>= answer else .err .injection := by
  obtain ⟨found, kept⟩ : (find name self).1 = _ ∧ _ := find_apply rest fits listed
  rw [Call.bind_apply]
  generalize find name self = returned at found kept
  obtain ⟨outcome, after⟩ := returned
  obtain rfl : outcome = _ := found
  by_cases few : entries.length ≤ 1024
  · simp only [if_pos few]
    cases lookup name entries with
    | err | overflow => rfl
    | ok selected => exact answers selected after kept
  · simp only [if_neg few]

/-- The loop over the digits, started with none, and the check behind it. -/
theorem readDigits_numeral (size : ℕ) (self : FwCfg) :
    ((do
      let (value, digits) ← readDigits size 0 0
      rejectIf (digits = 0) PostFirmwareError.injection
      return some value : Call FwCfg PostFirmwareError (Option UInt32)) self).1 =
      numeral (line size self.unread) := by
  have read := readDigits_apply size 0 0 self
  have start : (0 : UInt32).toNat = 0 := rfl
  rw [start, ← decimal] at read
  rw [Call.bind_apply]
  generalize readDigits size 0 0 self = returned at read
  obtain ⟨outcome, after⟩ := returned
  obtain rfl : outcome = _ := read
  by_cases accepted : (line size self.unread).all isAsciiDigit = true ∧
      decimal (line size self.unread) < 2 ^ 32
  · rw [if_pos accepted, numeral]
    by_cases empty : line size self.unread = []
    · simp [empty, Call.bind_apply, rejectIf]
    · have counted : (line size self.unread).length ≠ 0 := List.length_eq_zero_iff.not.mpr empty
      rw [if_pos ⟨empty, accepted⟩]
      simp [Call.bind_apply, rejectIf, counted]
  · rw [if_neg accepted, numeral, if_neg fun all => accepted all.2]

/-- Processor 13 is to fail, and the machine to reboot; an earlier entry says otherwise. -/
def directory : List Entry :=
  [⟨8, 0x20, 0, power, by decide, by decide⟩, ⟨3, 0x21, 0, failAp, by decide, by decide⟩,
    ⟨7, 0x22, 0, power, by decide, by decide⟩]

/-- A device with this directory. -/
def device : FwCfg where
  items selector :=
    if selector = 0x19 then encode directory
    else if selector = 0x20 then poweroffText
    else if selector = 0x21 then [49, 51, 10]
    else if selector = 0x22 then rebootText ++ [10]
    else []
  unread := []

theorem device_listed : device.items 0x19 = encode directory ++ [] := (List.append_nil _).symm

/-- `fw_cfg_find` returns what the directory says, on every device that has one. -/
theorem find_reads_directory (name : List UInt8) (fits : entries.length < 2 ^ 32)
    (listed : self.items 0x19 = encode entries ++ rest) :
    (find name self).1 = if entries.length ≤ 1024 then lookup name entries else .err .injection :=
  (find_apply rest fits listed).1

theorem find_power_on_device : (find power device).1 = .ok (some (0x22, 7)) :=
  (find_reads_directory power (by decide) device_listed).trans (by decide +kernel)

/-- `fw_cfg_failure_apic` returns the number on the first line of the item that the directory names,
for every content of the device: a decimal number of at most ten digits that fits into 32 bits is
accepted, and nothing else is.  A directory of more than 1024 entries is refused. -/
theorem failure_apic_reads_decimal (fits : entries.length < 2 ^ 32)
    (listed : self.items 0x19 = encode entries ++ rest) :
    (failureApic self).1 =
      if entries.length ≤ 1024 then do
        match ← lookup failAp entries with
        | none => return none
        | some (selector, size) =>
            rejectIf (size > 10) PostFirmwareError.injection
            numeral (line size.toNat (self.items selector))
      else .err .injection := by
  refine find_bind fits listed ?_
  rintro (_ | ⟨selector, size⟩) after kept
  · rfl
  · by_cases long : size > 10
    · simp [Call.bind_apply, rejectIf, long]
    · simp only [Call.bind_apply, Call.lift_apply, rejectIf, long, if_false, select_apply, ok_bind]
      rw [← kept]
      exact readDigits_numeral size.toNat { after with unread := after.items selector }

theorem failure_apic_on_device : (failureApic device).1 = .ok (some 13) :=
  (failure_apic_reads_decimal (by decide) device_listed).trans (by decide +kernel)

/-- `fw_cfg_power_action` compares the first line of the item that the directory names, and shuts
the machine down if there is none.  A directory of more than 1024 entries is refused. -/
theorem power_action_reads_line (fits : entries.length < 2 ^ 32)
    (listed : self.items 0x19 = encode entries ++ rest) :
    (powerAction self).1 =
      if entries.length ≤ 1024 then do
        match ← lookup power entries with
        | none => return .powerOff
        | some (selector, size) =>
            rejectIf (size > 8) PostFirmwareError.injection
            powerActionOf (line size.toNat (self.items selector))
      else .err .injection := by
  refine find_bind fits listed ?_
  rintro (_ | ⟨selector, size⟩) after kept
  · rfl
  · by_cases long : size > 8
    · simp [Call.bind_apply, rejectIf, long]
    · have small : size.toNat ≤ 8 := UInt64.le_iff_toNat_le.mp (UInt64.not_lt.mp long)
      simp only [Call.bind_apply, Call.lift_apply, rejectIf, long, if_false, select_apply, ok_bind,
        kept, readBytes_apply, take_array small]

theorem power_action_on_device : (powerAction device).1 = .ok .reboot :=
  (power_action_reads_line (by decide) device_listed).trans (by decide +kernel)

end Items

end FwCfg

end Bulla.Platform
