import Mathlib.Data.List.DropRight
import Mathlib.Data.Nat.Digits.Defs
import CallStacks.Green.Settings

/-! Byte counts in settings: what their readers accept is what the rules for them write, and a text that they do not
accept is given back as it was found. The rules are stated apart from the readers, on the characters of the text. -/

namespace CallStacks

namespace Text

variable {text form : List Char}

/-- The text is the form with white space around it, and at the ends of the form there is none. -/
structure Encloses (text form : List Char) : Prop where
  around : ∃ before after, text = before ++ form ++ after ∧ ∀ c ∈ before ++ after, isBlank c
  starts : ∀ c, form.head? = some c → isBlank c = false
  ends : ∀ c, form.getLast? = some c → isBlank c = false

private theorem encloses_trim (text : List Char) : Encloses text (trim text) := by
  change Encloses text ((text.dropWhile isBlank).rdropWhile isBlank)
  refine ⟨⟨text.takeWhile isBlank, (text.dropWhile isBlank).rtakeWhile isBlank, ?_, ?_⟩, fun c first => ?_,
    fun c last => ?_⟩
  · rw [List.append_assoc, List.rdropWhile_append_rtakeWhile, List.takeWhile_append_dropWhile]
  · intro c within
    rcases List.mem_append.mp within with within | within
    · exact List.mem_takeWhile_imp within
    · exact List.mem_rtakeWhile_imp within
  · obtain ⟨rest, split⟩ := List.rdropWhile_prefix isBlank (text.dropWhile isBlank)
    have start := List.head?_dropWhile_not isBlank text
    rw [← split, List.head?_append, first] at start
    exact start
  · obtain ⟨some, rfl⟩ := List.mem_getLast?_eq_getLast last
    simpa using List.rdropWhile_last_not isBlank _ some

private theorem dropWhile_of_starts (starts : ∀ c, form.head? = some c → isBlank c = false) :
    form.dropWhile isBlank = form := by
  cases form with
  | nil => rfl
  | cons c rest => exact List.dropWhile_cons_of_neg (by simp [starts c rfl])

private theorem trim_eq_iff : trim text = form ↔ Encloses text form := by
  refine ⟨fun same => same ▸ encloses_trim text, fun encloses => ?_⟩
  obtain ⟨⟨before, after, rfl, blank⟩, starts, ends⟩ := encloses
  have leading : ∀ c ∈ before, isBlank c := fun c within => blank c (List.mem_append_left _ within)
  have trailing : ∀ c ∈ after.reverse, isBlank c := fun c within =>
    blank c (List.mem_append_right _ (List.mem_reverse.mp within))
  rw [trim, List.append_assoc, List.dropWhile_append_of_pos leading]
  cases form with
  | nil =>
    have nothing : after.dropWhile isBlank = [] :=
      List.dropWhile_eq_nil_iff.mpr fun c within => trailing c (List.mem_reverse.mpr within)
    rw [List.nil_append, nothing]
    rfl
  | cons c rest =>
    have front : (c :: rest ++ after).dropWhile isBlank = c :: rest ++ after := dropWhile_of_starts starts
    have back : (c :: rest).reverse.dropWhile isBlank = (c :: rest).reverse :=
      dropWhile_of_starts fun last first => ends last (List.head?_reverse ▸ first)
    rw [front, List.reverse_append, List.dropWhile_append_of_pos trailing, back, List.reverse_reverse]

end Text

namespace Setting

variable {text digits form suffix : List Char} {scale count : Nat}

inductive Scale : List Char → Nat → Prop
  | byte : Scale [] 1
  | kilo {letter : Char} (known : letter = 'k' ∨ letter = 'K') : Scale [letter] 1024
  | mega {letter : Char} (known : letter = 'm' ∨ letter = 'M') : Scale [letter] (1024 * 1024)

/-- The number that digits denote. The first of them counts most. -/
def denoted (digits : List Char) : Nat := Nat.ofDigits 10 (digits.reverse.map fun c => c.toNat - '0'.toNat)

/-- A number as it is written: digits, with a plus sign before them or not. -/
inductive Number : List Char → Nat → Prop
  | plain {digits : List Char} (some : digits ≠ []) (ascii : ∀ c ∈ digits, c.isDigit) : Number digits (denoted digits)
  | signed {digits : List Char} (some : digits ≠ []) (ascii : ∀ c ∈ digits, c.isDigit) :
      Number ('+' :: digits) (denoted digits)

/-- A byte count as it is written: a number and a unit with nothing between them. The number and the count fit a word,
and the count is not zero. -/
inductive Written : List Char → Nat → Prop
  | intro {number suffix : List Char} {value scale : Nat} (read : Number number value) (unit : Scale suffix scale)
      (fits : value < 2 ^ 64) (positive : 0 < value * scale) (bounded : value * scale < 2 ^ 64) :
      Written (number ++ suffix) (value * scale)

private theorem foldl_digits (digits : List Char) :
    digits.foldl (fun value c => 10 * value + (c.toNat - 48)) 0 = denoted digits := by
  rw [denoted, Nat.ofDigits_eq_foldr, List.foldr_map, List.foldr_reverse]
  congr 1
  funext value c
  exact Nat.add_comm _ _

private theorem number_signed (digits : List Char) :
    number ('+' :: digits) = if digits ≠ [] ∧ digits.all Char.isDigit then some (denoted digits) else none := by
  rw [← foldl_digits]
  rfl

private theorem number_plain (start : digits.head? ≠ some '+') :
    number digits = if digits ≠ [] ∧ digits.all Char.isDigit then some (denoted digits) else none := by
  rw [← foldl_digits, number, if_neg start]

private theorem number_eq_some_iff {value : Nat} : number text = some value ↔ Number text value := by
  constructor
  · intro read
    by_cases start : text.head? = some '+'
    · obtain ⟨digits, rfl⟩ := List.head?_eq_some_iff.mp start
      rw [number_signed, Option.ite_none_right_eq_some, List.all_eq_true] at read
      obtain ⟨⟨some, ascii⟩, same⟩ := read
      cases same
      exact .signed some ascii
    · rw [number_plain start, Option.ite_none_right_eq_some, List.all_eq_true] at read
      obtain ⟨⟨some, ascii⟩, same⟩ := read
      cases same
      exact .plain some ascii
  · intro written
    cases written with
    | plain some ascii =>
      have start : text.head? ≠ Option.some '+' := fun plus =>
        absurd (ascii '+' (List.mem_of_head? plus)) (by decide)
      rw [number_plain start, if_pos ⟨some, List.all_eq_true.mpr ascii⟩]
    | signed some ascii => rw [number_signed, if_pos ⟨some, List.all_eq_true.mpr ascii⟩]

private theorem toLower_cases (c : Char) :
    c.toLower = c ∨ (65 ≤ c.toNat ∧ c.toNat ≤ 90) ∧ c.toLower.toNat = c.toNat + 32 := by
  unfold Char.toLower
  split
  next capital =>
    have bounds : 65 ≤ c.toNat ∧ c.toNat ≤ 90 := capital
    refine .inr ⟨bounds, ?_⟩
    change (c.val + 32).toNat = _
    rw [UInt32.toNat_add]
    exact Nat.mod_eq_of_lt (by change c.toNat + 32 < _; omega)
  next => exact .inl rfl

private theorem toLower_of_low {c : Char} (low : c.toNat ≤ 57) : c.toLower = c := by
  rcases toLower_cases c with same | ⟨capital, _⟩
  · exact same
  · omega

private theorem toLower_of_toLower_low {c : Char} (low : c.toLower.toNat ≤ 57) : c.toLower = c := by
  rcases toLower_cases c with same | ⟨capital, folded⟩
  · exact same
  · omega

private theorem fold_of_low (low : ∀ c ∈ text, c.toNat ≤ 57) : fold text = text :=
  (List.map_congr_left fun c within => toLower_of_low (low c within)).trans (List.map_id text)

private theorem toLower_eq_iff {small capital c : Char} (fixed : small.toLower = small)
    (folds : capital.toLower = small)
    (apart : small.toNat = capital.toNat + 32) : c.toLower = small ↔ c = small ∨ c = capital := by
  constructor
  · intro same
    rcases toLower_cases c with kept | ⟨_, folded⟩
    · exact .inl (kept.symm.trans same)
    · rw [same] at folded
      exact .inr (Char.toNat_inj.mp (by omega))
  · rintro (rfl | rfl)
    · exact fixed
    · exact folds

private theorem toLower_eq_k_iff {c : Char} : c.toLower = 'k' ↔ c = 'k' ∨ c = 'K' := toLower_eq_iff rfl rfl rfl

private theorem toLower_eq_m_iff {c : Char} : c.toLower = 'm' ↔ c = 'm' ∨ c = 'M' := toLower_eq_iff rfl rfl rfl

theorem Number.low {value : Nat} (written : Number text value) : ∀ c ∈ text, c.toNat ≤ 57 := by
  have digit : ∀ c : Char, c.isDigit → c.toNat ≤ 57 := by
    intro c ascii
    rw [Char.isDigit, Bool.and_eq_true, decide_eq_true_eq, decide_eq_true_eq] at ascii
    exact ascii.2
  cases written with
  | plain some ascii => exact fun c within => digit c (ascii c within)
  | signed some ascii => exact List.forall_mem_cons.mpr ⟨by decide, fun c within => digit c (ascii c within)⟩

private theorem unit_byte (other : ∀ c, text.getLast? = some c → c.toLower ≠ 'k' ∧ c.toLower ≠ 'm') :
    unit (fold text) = (fold text, 1) := by
  have last : (fold text).getLast? = text.getLast?.map Char.toLower := List.getLast?_map
  unfold unit
  split
  next small =>
    obtain ⟨c, known, folded⟩ := Option.map_eq_some_iff.mp (last ▸ small)
    exact absurd folded (other c known).1
  next small =>
    obtain ⟨c, known, folded⟩ := Option.map_eq_some_iff.mp (last ▸ small)
    exact absurd folded (other c known).2
  next => rfl

private theorem unit_kilo {letter : Char} (known : letter = 'k' ∨ letter = 'K') (body : List Char) :
    unit (fold (body ++ [letter])) = (fold body, 1024) := by
  simp [unit, fold, toLower_eq_k_iff.mpr known]

private theorem unit_mega {letter : Char} (known : letter = 'm' ∨ letter = 'M') (body : List Char) :
    unit (fold (body ++ [letter])) = (fold body, 1024 * 1024) := by
  simp [unit, fold, toLower_eq_m_iff.mpr known]

private theorem exists_unit (text : List Char) :
    ∃ body suffix scale, text = body ++ suffix ∧ Scale suffix scale ∧ unit (fold text) = (fold body, scale) := by
  rcases List.eq_nil_or_concat' text with rfl | ⟨body, last, rfl⟩
  · exact ⟨[], [], 1, rfl, .byte, rfl⟩
  · by_cases kilo : last = 'k' ∨ last = 'K'
    · exact ⟨body, [last], 1024, rfl, .kilo kilo, unit_kilo kilo body⟩
    by_cases mega : last = 'm' ∨ last = 'M'
    · exact ⟨body, [last], 1024 * 1024, rfl, .mega mega, unit_mega mega body⟩
    refine ⟨body ++ [last], [], 1, (List.append_nil _).symm, .byte, unit_byte fun c known => ?_⟩
    obtain rfl : last = c := by simpa using known
    exact ⟨mt toLower_eq_k_iff.mp kilo, mt toLower_eq_m_iff.mp mega⟩

/-- The unit is cut off where a number ends. -/
theorem unit_number {number suffix : List Char} {value scale : Nat} (read : Number number value)
    (unit : Scale suffix scale) : Setting.unit (fold (number ++ suffix)) = (number, scale) := by
  have same := fold_of_low read.low
  cases unit with
  | byte =>
    have other : ∀ c, number.getLast? = some c → c.toLower ≠ 'k' ∧ c.toLower ≠ 'm' := by
      intro c last
      have low := read.low c (List.mem_of_getLast? last)
      rw [toLower_of_low low]
      constructor <;> rintro rfl <;> exact absurd low (by decide)
    rw [List.append_nil, unit_byte other, same]
  | kilo known => rw [unit_kilo known, same]
  | mega known => rw [unit_mega known, same]

/-- What the rules write is what the readers take apart. -/
theorem written_iff : Written form count ↔
    ∃ value, number (unit (fold form)).1 = some value ∧ value < UInt64.size ∧
      0 < value * (unit (fold form)).2 ∧ value * (unit (fold form)).2 < UInt64.size ∧
      value * (unit (fold form)).2 = count := by
  constructor
  · rintro ⟨read, unit, fits, positive, bounded⟩
    rw [unit_number read unit]
    exact ⟨_, number_eq_some_iff.mpr read, fits, positive, bounded, rfl⟩
  · rintro ⟨value, read, fits, positive, bounded, rfl⟩
    obtain ⟨body, suffix, scale, rfl, unit, cut⟩ := exists_unit form
    rw [cut] at read positive bounded ⊢
    have known := number_eq_some_iff.mp read
    have same : fold body = body := (List.map_congr_left fun c within =>
      toLower_of_toLower_low (known.low _ (List.mem_map_of_mem within))).trans (List.map_id body)
    exact .intro (same ▸ known) unit fits positive bounded

private theorem byteCount_of_written {text : String} (name : String) (written : Written (Text.trim text.toList) count) :
    byteCount name text = .ok (UInt64.ofNat count) ∧ count < UInt64.size := by
  obtain ⟨value, read, fits, positive, bounded, rfl⟩ := written_iff.mp written
  rw [byteCount, core]
  dsimp only
  rw [read]
  exact ⟨if_pos ⟨fits, positive, bounded⟩, bounded⟩

private theorem byteCount_of_not_written {text : String} (name : String)
    (none : ∀ count, ¬ Written (Text.trim text.toList) count) : byteCount name text = .error ⟨name, text⟩ := by
  rw [byteCount, core]
  dsimp only
  split
  next value read =>
    exact if_neg fun ⟨fits, positive, bounded⟩ =>
      none _ (written_iff.mpr ⟨value, read, fits, positive, bounded, rfl⟩)
  next => rfl

/-- A variable is read exactly from the texts that write a count of bytes. Any other text is refused, with the name of
the variable and the text as it was found. -/
theorem byteCount_reads (name text : String) :
    (∀ count : Word, byteCount name text = .ok count ↔
      ∃ form, Text.Encloses text.toList form ∧ Written form count.toNat) ∧
    (byteCount name text = .error ⟨name, text⟩ ↔
      ¬ ∃ form count, Text.Encloses text.toList form ∧ Written form count) := by
  refine ⟨fun count => ⟨fun read => ?_, ?_⟩, fun refused => ?_, fun none => ?_⟩
  · refine ⟨Text.trim text.toList, Text.encloses_trim text.toList, ?_⟩
    by_cases written : ∃ known, Written (Text.trim text.toList) known
    · obtain ⟨known, written⟩ := written
      obtain ⟨same, small⟩ := byteCount_of_written name written
      obtain rfl : UInt64.ofNat known = count := Except.ok.inj (same.symm.trans read)
      rwa [UInt64.toNat_ofNat_of_lt' small]
    · rw [byteCount_of_not_written name (not_exists.mp written)] at read
      cases read
  · rintro ⟨form, encloses, written⟩
    obtain rfl := Text.trim_eq_iff.mpr encloses
    rw [(byteCount_of_written name written).1, UInt64.ofNat_toNat]
  · rintro ⟨form, known, encloses, written⟩
    obtain rfl := Text.trim_eq_iff.mpr encloses
    rw [(byteCount_of_written name written).1] at refused
    cases refused
  · exact byteCount_of_not_written name fun known written =>
      none ⟨_, known, Text.encloses_trim text.toList, written⟩

example : byteCount Green.Settings.segmentVariable " +016K\n" = .ok 16384 := by rfl

end Setting
end CallStacks
