import NotepadCalculator.Json.Reader
import NotepadCalculator.Proofs.DecimalNumbers
import NotepadCalculator.Session.Basic

/-!
Records are JSON. Every string is escaped so that it is read back, every amount is a number as JSON
has it or null, and an object of such texts is read as an object, whatever object it is part of.
Line feeds are escaped with all other control characters, so a record stays on one line.
-/
namespace NotepadCalculator.Json
open Number Text Scan

def Separate (rest : List Char) : Prop := ∀ c ∈ rest.head?, c = ',' ∨ c = '}'

/-- The text is read as the value, in front of anything that can stand behind it, where so many
    levels are left. -/
structure Writes (depth : Nat) (cs : List Char) (v : Value) : Prop where
  reads : ∀ more rest, Separate rest → valueWithin (depth + more) (cs ++ rest) = some (v, rest)
  unbroken : '\n' ∉ cs

theorem Writes.deeper {depth : Nat} {cs : List Char} {v : Value} (writes : Writes depth cs v)
    (n : Nat) : Writes (depth + n) cs v where
  reads more rest separate := by
    rw [Nat.add_assoc]
    exact writes.reads (n + more) rest separate
  unbroken := writes.unbroken

section
variable {rest : List Char} (separate : Separate rest)
include separate

theorem Separate.ends {p : Char → Bool} (comma : p ',' = false) (brace : p '}' = false) :
    rest.head?.any p = false := by
  cases rest with
  | nil => rfl
  | cons c rest =>
    rcases separate c rfl with rfl | rfl
    · exact comma
    · exact brace

theorem Separate.skipSpace : skipSpace rest = rest := by
  cases rest with
  | nil => rfl
  | cons c rest => rcases separate c rfl with rfl | rfl <;> rfl

end

/-! Numbers. -/

inductive IsWhole : List Char → Prop where
  | zero : IsWhole ['0']
  | digits {c : Char} {cs : List Char} (first : c ≠ '0')
      (numeric : ∀ d ∈ c :: cs, isDigit d = true) : IsWhole (c :: cs)

inductive Magnitude : List Char → Prop where
  | intro {whole places power : List Char} (unpadded : IsWhole whole) (fraction : IsFraction places)
      (scaled : IsPower power) : Magnitude (whole ++ (places ++ power))

inductive NumberText : List Char → Prop where
  | intro {sign cs : List Char} (signed : sign ∈ [[], ['-']]) (magnitude : Magnitude cs) :
      NumberText (sign ++ cs)

theorem IsWhole.numeric {cs : List Char} (whole : IsWhole cs) : ∀ c ∈ cs, isDigit c = true := by
  cases whole with
  | zero => simpa using show isDigit '0' = true by decide
  | digits _ numeric => exact numeric

theorem IsWhole.head {cs : List Char} (whole : IsWhole cs) :
    ∃ c rest, cs = c :: rest ∧ isDigit c = true := by
  have numeric := whole.numeric
  cases whole with
  | zero => exact ⟨'0', [], rfl, numeric '0' List.mem_cons_self⟩
  | digits _ _ => exact ⟨_, _, rfl, numeric _ List.mem_cons_self⟩

theorem wholeDigits?_written {whole rest : List Char} (unpadded : IsWhole whole)
    (ends : startsDigit rest = false) : wholeDigits? (whole ++ rest) = some whole := by
  have taken := takeWhile_left unpadded.numeric ends
  unfold wholeDigits?
  rw [taken]
  cases unpadded with
  | zero => rfl
  | digits first _ =>
    split <;> simp_all

theorem places?_written {places rest : List Char} (fraction : IsFraction places)
    (ends : startsDigit rest = false) (noPoint : rest.head? ≠ some '.') :
    places? (places ++ rest) = some places := by
  cases fraction with
  | none =>
    cases rest with
    | nil => rfl
    | cons c rest =>
      unfold places?
      split <;> simp_all
  | some nonempty numeric => simp [places?, takeWhile_left numeric ends, nonempty]

theorem power?_written {power rest : List Char} (scaled : IsPower power)
    (separate : Separate rest) : power? (power ++ rest) = some power := by
  cases scaled with
  | none =>
    cases rest with
    | nil => rfl
    | cons c rest => rcases separate c rfl with rfl | rfl <;> rfl
  | @some mark sign digits letter signed nonempty numeric =>
    have ends : startsDigit rest = false := separate.ends (by decide) (by decide)
    have taken := takeWhile_left numeric ends
    have marked : (decide (mark = 'e') || decide (mark = 'E')) = true := by
      simpa using letter
    cases digits with
    | nil => contradiction
    | cons d digits =>
      have digit := numeric d List.mem_cons_self
      have plus : d ≠ '+' := by rintro rfl; contradiction
      have minus : d ≠ '-' := by rintro rfl; contradiction
      simp only [List.mem_cons, List.not_mem_nil, or_false] at signed
      rcases signed with rfl | rfl | rfl <;> simp_all [power?]

theorem head?_power_ne_point {power rest : List Char} (scaled : IsPower power)
    (separate : Separate rest) : (power ++ rest).head? ≠ some '.' := by
  cases scaled with
  | none =>
    rintro point
    rcases separate '.' point with same | same <;> contradiction
  | some letter _ _ _ =>
    simp only [List.mem_cons, List.not_mem_nil, or_false] at letter
    rcases letter with rfl | rfl <;> simp

theorem number?_written {cs : List Char} (number : NumberText cs) :
    ∃ v, ∀ rest, Separate rest → number? (cs ++ rest) = some (v, rest) := by
  obtain @⟨sign, _, signed, @⟨whole, places, power, unpadded, fraction, scaled⟩⟩ := number
  refine ⟨if sign = [] ∧ places = [] ∧ power = [] then .whole (digitsValue whole)
    else .otherNumber, fun rest separate => ?_⟩
  have unscaled : startsDigit (power ++ rest) = false :=
    startsDigit_power scaled (separate.ends (by decide) (by decide))
  have wholeRead := wholeDigits?_written unpadded (startsDigit_fraction fraction unscaled)
  have placesRead := places?_written fraction unscaled (head?_power_ne_point scaled separate)
  have powerRead := power?_written scaled separate
  have minus : (if (sign ++ (whole ++ (places ++ (power ++ rest)))).head? = some '-' then ['-']
      else []) = sign := by
    simp only [List.mem_cons, List.not_mem_nil, or_false] at signed
    rcases signed with rfl | rfl
    · obtain ⟨c, cs, rfl, digit⟩ := unpadded.head
      have noMinus : c ≠ '-' := by rintro rfl; contradiction
      simp [noMinus]
    · rfl
  simp only [List.append_assoc, number?, minus, List.drop_left, wholeRead, bind, Option.bind]
  rw [← List.drop_drop, List.drop_left, List.drop_left, placesRead]
  simp only [List.drop_left, powerRead]
  rw [← List.drop_drop, List.drop_left, List.drop_left]
  split <;> rfl

theorem NumberText.head {cs : List Char} (number : NumberText cs) :
    ∃ c rest, cs = c :: rest ∧ (c = '-' ∨ isDigit c = true) := by
  obtain @⟨sign, _, signed, @⟨whole, places, power, unpadded, fraction, scaled⟩⟩ := number
  simp only [List.mem_cons, List.not_mem_nil, or_false] at signed
  rcases signed with rfl | rfl
  · obtain ⟨c, cs, rfl, digit⟩ := unpadded.head
    exact ⟨c, _, rfl, .inr digit⟩
  · exact ⟨'-', _, rfl, .inl rfl⟩

theorem valueWithin_number {c : Char} {rest : List Char} (begins : c = '-' ∨ isDigit c = true)
    (depth : Nat) : valueWithin (depth + 1) (c :: rest) = number? (c :: rest) := by
  have other (d : Char) (apart : d ≠ '-' ∧ isDigit d = false) : c ≠ d := by
    rintro rfl
    rcases begins with same | digit
    · exact apart.1 same
    · simp [apart.2] at digit
  have visible : isSpace c = false := by
    simp [isSpace, other ' ' (by decide), other '\t' (by decide), other '\n' (by decide),
      other '\r' (by decide)]
  have kept : skipSpace (c :: rest) = c :: rest := by simp [skipSpace, visible]
  unfold valueWithin
  rw [kept]
  split <;> rename_i same <;> first
    | rfl
    | exact absurd (List.cons.inj same).1 (other _ (by decide))

theorem unbroken_of_digits {cs : List Char} (numeric : ∀ c ∈ cs, isDigit c = true) :
    '\n' ∉ cs := by
  intro member
  have digit : isDigit '\n' = true := numeric '\n' member
  contradiction

theorem NumberText.unbroken {cs : List Char} (number : NumberText cs) : '\n' ∉ cs := by
  obtain @⟨sign, _, signed, @⟨whole, places, power, unpadded, fraction, scaled⟩⟩ := number
  have inSign : '\n' ∉ sign := by
    simp only [List.mem_cons, List.not_mem_nil, or_false] at signed
    rcases signed with rfl | rfl <;> decide
  have inWhole : '\n' ∉ whole := unbroken_of_digits unpadded.numeric
  have inPlaces : '\n' ∉ places := by
    cases fraction with
    | none => exact List.not_mem_nil
    | some _ numeric => simpa using unbroken_of_digits numeric
  have inPower : '\n' ∉ power := by
    cases scaled with
    | none => exact List.not_mem_nil
    | some letter signed _ numeric =>
      have digits := unbroken_of_digits numeric
      simp only [List.mem_cons, List.not_mem_nil, or_false] at letter signed
      rcases letter with rfl | rfl <;> rcases signed with rfl | rfl | rfl <;> simpa using digits
  simp only [List.mem_append, inSign, inWhole, inPlaces, inPower, or_self, not_false_eq_true]

theorem writes_number {cs : List Char} (number : NumberText cs) : ∃ v, Writes 1 cs v := by
  obtain ⟨v, read⟩ := number?_written number
  obtain ⟨c, others, rfl, begins⟩ := number.head
  refine ⟨v, fun more rest separate => ?_, number.unbroken⟩
  rw [Nat.add_comm, List.cons_append, valueWithin_number begins, ← List.cons_append,
    read rest separate]

theorem writes_null : Writes 1 "null".toList .null where
  reads more rest _ := by
    rw [Nat.add_comm]
    rfl
  unbroken := by decide

/-! Strings. -/

def unitOf (c : Char) : Unit16 :=
  if c.toNat < 32 ∧ c ∉ ['\x08', '\x0c', '\n', '\r', '\t'] then .code c.toNat else .char c

theorem hex4?_padded : ∀ n < 32, (padded 4 (Nat.toDigits 16 n)).length = 4 ∧
    hex4? (padded 4 (Nat.toDigits 16 n)) = some n := by decide

theorem unitsFuel_mark (fuel : Nat) {mark c : Char} (known : escape? mark = some c)
    (tail : List Char) : unitsFuel (fuel + 1) ('\\' :: mark :: tail) =
      (unitsFuel fuel tail).map fun (units, rest) => (.char c :: units, rest) := by
  have other : mark ≠ 'u' := by rintro rfl; contradiction
  rw [unitsFuel, known]
  · cases unitsFuel fuel tail <;> rfl
  all_goals simp [other]

theorem unitsFuel_code (fuel : Nat) {n : Nat} (small : n < 32) (tail : List Char) :
    unitsFuel (fuel + 1) ('\\' :: 'u' :: (padded 4 (Nat.toDigits 16 n) ++ tail)) =
      (unitsFuel fuel tail).map fun (units, rest) => (.code n :: units, rest) := by
  obtain ⟨length, read⟩ := hex4?_padded n small
  have front := @List.take_left _ (padded 4 (Nat.toDigits 16 n)) tail
  have back := @List.drop_left _ (padded 4 (Nat.toDigits 16 n)) tail
  rw [length] at front back
  rw [unitsFuel, front, back, read]
  cases unitsFuel fuel tail <;> rfl

theorem unitsFuel_plain (fuel : Nat) {c : Char} (noQuote : c ≠ '"') (noBackslash : c ≠ '\\')
    (visible : ¬ c.toNat < 32) (tail : List Char) : unitsFuel (fuel + 1) (c :: tail) =
      (unitsFuel fuel tail).map fun (units, rest) => (.char c :: units, rest) := by
  rw [unitsFuel]
  · simp only [visible, noBackslash, decide_false, Bool.or_self, Bool.false_eq_true, if_false]
    cases unitsFuel fuel tail <;> rfl
  all_goals simp [noQuote, noBackslash]

/-- A character behind a backslash, with its number, or as it stands, and what it is read as. -/
inductive Escapes (c : Char) : List Char → Unit16 → Prop where
  | mark {mark : Char} (known : escape? mark = some c) : Escapes c ['\\', mark] (.char c)
  | code (small : c.toNat < 32) :
      Escapes c ('\\' :: 'u' :: padded 4 (Nat.toDigits 16 c.toNat)) (.code c.toNat)
  | plain (noQuote : c ≠ '"') (noBackslash : c ≠ '\\') (visible : ¬ c.toNat < 32) :
      Escapes c [c] (.char c)

theorem escapes (c : Char) : Escapes c (Record.escaped c) (unitOf c) := by
  by_cases marked : c ∈ ['"', '\\', '\x08', '\x0c', '\n', '\r', '\t']
  · simp only [List.mem_cons, List.not_mem_nil, or_false] at marked
    rcases marked with rfl | rfl | rfl | rfl | rfl | rfl | rfl <;> exact .mark rfl
  · simp only [List.mem_cons, List.not_mem_nil, or_false, not_or] at marked
    obtain ⟨noQuote, noBackslash, noMark⟩ := marked
    by_cases control : c.toNat < 32
    · have code := Escapes.code control
      simpa [Record.escaped, unitOf, noQuote, noBackslash, noMark, control] using code
    · have plain := Escapes.plain noQuote noBackslash control
      simpa [Record.escaped, unitOf, noQuote, noBackslash, noMark, control] using plain

theorem unitsFuel_escaped (fuel : Nat) (c : Char) (tail : List Char) :
    unitsFuel (fuel + 1) (Record.escaped c ++ tail) =
      (unitsFuel fuel tail).map fun (units, rest) => (unitOf c :: units, rest) := by
  have escapes := escapes c
  generalize Record.escaped c = cs, unitOf c = unit at escapes ⊢
  cases escapes with
  | mark known => exact unitsFuel_mark fuel known tail
  | code small => exact unitsFuel_code fuel small tail
  | plain noQuote noBackslash visible => exact unitsFuel_plain fuel noQuote noBackslash visible tail

theorem content?_code {n : Nat} (small : n < 32) (units : List Unit16) :
    content? (.code n :: units) = (content? units).map (Char.ofNat n :: ·) := by
  have low : ¬ 0xD800 ≤ n := by omega
  cases units with
  | nil => simp [content?, low]
  | cons unit units =>
    cases unit <;> simp [content?, low]

theorem content?_units (cs : List Char) : content? (cs.map unitOf) = some cs := by
  induction cs with
  | nil => rfl
  | cons c cs ih =>
    rw [List.map_cons]
    by_cases control : c.toNat < 32 ∧ c ∉ ['\x08', '\x0c', '\n', '\r', '\t']
    · rw [unitOf, if_pos control, content?_code control.1, ih, Char.ofNat_toNat]
      rfl
    · rw [unitOf, if_neg control, content?, ih]
      rfl

theorem unitsFuel_quoted (s rest : List Char) {fuel : Nat} (enough : s.length ≤ fuel) :
    unitsFuel (fuel + 1) (s.flatMap Record.escaped ++ '"' :: rest) = some (s.map unitOf, rest) := by
  induction s generalizing fuel with
  | nil => rfl
  | cons c s ih =>
    rw [List.length_cons] at enough
    obtain ⟨fuel, rfl⟩ := Nat.exists_eq_add_of_le' (show 1 ≤ fuel by omega)
    rw [List.flatMap_cons, List.append_assoc, unitsFuel_escaped, ih (by omega)]
    rfl

theorem escaped_ne_nil (c : Char) : Record.escaped c ≠ [] := by
  have escapes := escapes c
  generalize Record.escaped c = cs, unitOf c = unit at escapes ⊢
  cases escapes <;> exact List.cons_ne_nil _ _

theorem string?_quoted (s rest : List Char) :
    string? (s.flatMap Record.escaped ++ '"' :: rest) = some (some s, rest) := by
  have enough : s.length ≤ (s.flatMap Record.escaped ++ '"' :: rest).length := by
    have longer : s.length ≤ (s.flatMap Record.escaped).length := by
      induction s with
      | nil => exact Nat.le_refl 0
      | cons c s ih =>
        have positive := List.length_pos_iff.2 (escaped_ne_nil c)
        rw [List.flatMap_cons, List.length_append, List.length_cons]
        omega
    rw [List.length_append]
    omega
  rw [string?, unitsFuel_quoted s rest enough, Option.map_some]
  dsimp only
  rw [content?_units]

theorem unbroken_escaped (c : Char) : '\n' ∉ Record.escaped c := by
  have escapes := escapes c
  generalize Record.escaped c = cs, unitOf c = unit at escapes ⊢
  cases escapes with
  | mark known =>
    intro member
    simp only [List.mem_cons, List.not_mem_nil, or_false] at member
    rcases member with backslash | rfl <;> contradiction
  | code small =>
    have digits : ∀ n < 32, '\n' ∉ padded 4 (Nat.toDigits 16 n) := by decide
    simpa using digits c.toNat small
  | plain noQuote noBackslash visible =>
    intro member
    rw [← List.mem_singleton.1 member] at visible
    exact visible (by decide)

theorem unbroken_quoted (s : String) : '\n' ∉ (Record.quoted s).toList := by
  have each : ∀ c ∈ s.toList, '\n' ∉ Record.escaped c := fun c _ => unbroken_escaped c
  simpa [Record.quoted] using each

theorem quoted_append (s : String) (rest : List Char) :
    (Record.quoted s).toList ++ rest = '"' :: (s.toList.flatMap Record.escaped ++ '"' :: rest) := by
  simp [Record.quoted]

theorem valueWithin_quote (depth : Nat) (rest : List Char) : valueWithin (depth + 1) ('"' :: rest) =
    (string? rest).map fun (content, rest) => (.string content, rest) := rfl

theorem writes_quoted (s : String) :
    Writes 1 (Record.quoted s).toList (.string (some s.toList)) where
  reads more rest _ := by
    rw [quoted_append, Nat.add_comm, valueWithin_quote, string?_quoted]
    rfl
  unbroken := unbroken_quoted s

/-! Objects. -/

structure FieldText where
  name : String
  text : String
  value : Value

def FieldText.written (f : FieldText) : String := Record.quoted f.name ++ ":" ++ f.text

theorem valueWithin_brace (depth : Nat) (rest : List Char) : valueWithin (depth + 1) ('{' :: rest) =
    object? (valueWithin depth) rest := rfl

theorem object?_quote (item : Reader) (rest : List Char) : object? item ('"' :: rest) =
    (fieldsFuel item (rest.length + 2) ('"' :: rest)).map fun (fields, rest) =>
      (.object fields, rest) := rfl

theorem fieldsFuel_field {item : Reader} {f : FieldText} {rest : List Char}
    (read : item (f.text.toList ++ rest) = some (f.value, rest)) (fuel : Nat) :
    fieldsFuel item (fuel + 1) (f.written.toList ++ rest) = match skipSpace rest with
      | ',' :: rest => (fieldsFuel item fuel rest).map fun (fields, rest) =>
        ((some f.name.toList, f.value) :: fields, rest)
      | '}' :: rest => some ([(some f.name.toList, f.value)], rest)
      | _ => none := by
  have quote (cs : List Char) : after? ['"'] (skipSpace ('"' :: cs)) = some cs := rfl
  have colon (cs : List Char) : after? [':'] (skipSpace (':' :: cs)) = some cs := rfl
  have characters : f.written.toList ++ rest =
      '"' :: (f.name.toList.flatMap Record.escaped ++ '"' :: ':' :: (f.text.toList ++ rest)) := by
    simp [FieldText.written, Record.quoted]
  rw [characters, fieldsFuel, quote]
  simp only [bind, Option.bind, string?_quoted, colon, read]
  generalize skipSpace rest = ahead
  split
  · rename_i later
    change _ = (fieldsFuel item fuel later).map _
    cases fieldsFuel item fuel later <;> rfl
  · rfl
  · simp_all

theorem fieldsFuel_written {item : Reader} {first : FieldText} {fields : List FieldText}
    (each : ∀ f ∈ first :: fields, ∀ rest, Separate rest →
      item (f.text.toList ++ rest) = some (f.value, rest)) {fuel : Nat}
    (enough : fields.length ≤ fuel) (rest : List Char) :
    fieldsFuel item (fuel + 1)
        ([','].intercalate ((first :: fields).map fun f => f.written.toList) ++ '}' :: rest) =
      some ((first :: fields).map fun f => (some f.name.toList, f.value), rest) := by
  induction fields generalizing first fuel with
  | nil =>
    have last := each first List.mem_cons_self ('}' :: rest) (by simp [Separate])
    rw [List.map_singleton, List.intercalate_singleton, fieldsFuel_field last]
    rfl
  | cons second fields ih =>
    rw [List.length_cons] at enough
    obtain ⟨fuel, rfl⟩ := Nat.exists_eq_add_of_le' (show 1 ≤ fuel by omega)
    have later := ih (fun f member => each f (List.mem_cons_of_mem first member))
      (show fields.length ≤ fuel by omega)
    have comma (cs : List Char) : skipSpace (',' :: cs) = ',' :: cs := rfl
    have here := each first List.mem_cons_self
      (',' :: ([','].intercalate ((second :: fields).map fun f => f.written.toList) ++ '}' :: rest))
      (by simp [Separate])
    have parts : [','].intercalate ((first :: second :: fields).map fun f => f.written.toList) ++
        '}' :: rest = first.written.toList ++
          ',' :: ([','].intercalate ((second :: fields).map fun f => f.written.toList) ++
            '}' :: rest) := by
      simp [List.intercalate_cons_cons]
    rw [parts, fieldsFuel_field here, comma]
    simp only [later]
    rfl

theorem toList_object (fields : List FieldText) :
    (Record.object (fields.map fun f => (f.name, f.text))).toList =
      '{' :: ([','].intercalate (fields.map fun f => f.written.toList) ++ ['}']) := by
  have written : Record.object (fields.map fun f => (f.name, f.text)) =
      "\x7b" ++ ",".intercalate (fields.map FieldText.written) ++ "\x7d" := by
    rw [Record.object, List.map_map]
    rfl
  rw [written]
  simp [String.toList_intercalate, Function.comp_def]

theorem mem_intercalate {c mark : Char} {parts : List (List Char)}
    (member : c ∈ [mark].intercalate parts) : c = mark ∨ ∃ part ∈ parts, c ∈ part := by
  induction parts with
  | nil => contradiction
  | cons part parts ih =>
    cases parts with
    | nil => exact .inr ⟨part, List.mem_cons_self, by simpa using member⟩
    | cons next parts =>
      simp only [List.intercalate_cons_cons, List.mem_append, List.mem_singleton] at member
      rcases member with (here | here) | later
      · exact .inr ⟨part, List.mem_cons_self, here⟩
      · exact .inl here
      · apply (ih later).imp_right
        rintro ⟨other, among, here⟩
        exact ⟨other, List.mem_cons_of_mem part among, here⟩

theorem length_le_intercalate (mark : Char) {parts : List (List Char)}
    (nonempty : ∀ part ∈ parts, part ≠ []) : parts.length ≤ ([mark].intercalate parts).length := by
  induction parts with
  | nil => exact Nat.zero_le _
  | cons part parts ih =>
    obtain ⟨here, others⟩ := List.forall_mem_cons.1 nonempty
    have positive := List.length_pos_iff.2 here
    have later := ih others
    cases parts with
    | nil => rwa [List.intercalate_singleton]
    | cons next parts =>
      simp only [List.intercalate_cons_cons, List.length_append, List.length_cons] at later ⊢
      omega

theorem writes_object {depth : Nat} {first : FieldText} {fields : List FieldText}
    (each : ∀ f ∈ first :: fields, Writes depth f.text.toList f.value) :
    Writes (depth + 1) (Record.object ((first :: fields).map fun f => (f.name, f.text))).toList
      (.object ((first :: fields).map fun f => (some f.name.toList, f.value))) where
  reads more rest _ := by
    have quote : ∃ tail, [','].intercalate ((first :: fields).map fun f => f.written.toList) ++
        '}' :: rest = '"' :: tail := by
      cases fields <;> simp [FieldText.written, Record.quoted, List.intercalate_cons_cons]
    have filled : ∀ part ∈ (first :: fields).map fun f => f.written.toList, part ≠ [] := by
      simp [FieldText.written, Record.quoted]
    have enough := length_le_intercalate ',' filled
    have read (fuel : Nat) (enough : fields.length ≤ fuel) :=
      fieldsFuel_written (fun f member => (each f member).reads more) enough rest
    rw [toList_object, Nat.add_right_comm, List.cons_append, List.append_assoc,
      List.singleton_append, valueWithin_brace]
    obtain ⟨tail, begins⟩ := quote
    have length := congrArg List.length begins
    rw [begins] at read ⊢
    rw [object?_quote, read]
    · rfl
    · simp only [List.length_append, List.length_cons, List.length_map] at enough length
      omega
  unbroken := by
    rw [toList_object]
    intro member
    simp only [List.mem_cons, List.mem_append, List.not_mem_nil, or_false] at member
    rcases member with brace | inside | brace
    · contradiction
    · rcases mem_intercalate inside with comma | ⟨part, among, here⟩
      · contradiction
      · obtain ⟨f, member, rfl⟩ := List.mem_map.1 among
        have name := unbroken_quoted f.name
        have text := (each f member).unbroken
        simp [FieldText.written, name, text] at here
    · contradiction

/-! Amounts. -/

theorem isDigit_of_mem_digits {n : Nat} : ∀ c ∈ digits n, isDigit c = true := by
  intro c member
  have digit := Nat.isDigit_of_mem_toDigits (by decide) (by decide) member
  simpa [isDigit, Char.isDigit, Char.le_def] using digit

theorem isWhole_digits (n : Nat) : IsWhole (digits n) := by
  by_cases zero : n = 0
  · subst zero
    exact .zero
  · have first : ∃ c cs, digits n = c :: cs ∧ c ≠ '0' := by
      induction n using Nat.strongRecOn with
      | ind n ih =>
        by_cases small : n < 10
        · have each : ∀ k < 10, k ≠ 0 → Nat.digitChar k ≠ '0' := by decide
          exact ⟨_, [], Nat.toDigits_of_lt_base small, each n small zero⟩
        · obtain ⟨c, cs, front, nonzero⟩ := ih (n / 10) (by omega) (by omega)
          have split : digits n = digits (n / 10) ++ [Nat.digitChar (n % 10)] :=
            Nat.toDigits_of_base_le (by decide) (by omega)
          exact ⟨c, _, by rw [split, front, List.cons_append], nonzero⟩
    obtain ⟨c, cs, written, nonzero⟩ := first
    have numeric := isDigit_of_mem_digits (n := n)
    rw [written] at numeric ⊢
    exact .digits nonzero numeric

theorem IsWhole.front {cs : List Char} (whole : IsWhole cs) (n : Nat) :
    IsWhole (cs.take (n + 1)) := by
  cases whole with
  | zero => simpa using IsWhole.zero
  | @digits c cs first numeric =>
    rw [List.take_succ_cons]
    refine .digits first fun d member => numeric d ?_
    rw [← List.take_succ_cons] at member
    exact List.mem_of_mem_take member

/-- There is a digit before the point and one behind it, and no zero is added in front of others. -/
theorem withPoint_written {places : Nat} (pointed : 1 ≤ places) (n : Nat) :
    ∃ whole fraction, withPoint places n = whole ++ fraction ∧ IsWhole whole ∧
      IsFraction fraction := by
  have apart : places ≠ 0 := by omega
  obtain ⟨more, length⟩ :
      ∃ more, (padded (places + 1) (digits n)).length = places + (more + 1) := by
    refine ⟨(digits n).length - (places + 1), ?_⟩
    simp only [padded, List.length_append, List.length_replicate]
    omega
  have count : (padded (places + 1) (digits n)).length - places = more + 1 := by omega
  refine ⟨_, _, by simp only [withPoint, if_neg apart, count]; rfl, ?_, .some ?_ ?_⟩
  · by_cases short : (digits n).length ≤ places
    · obtain ⟨zeros, same⟩ := Nat.exists_eq_add_of_le short
      have nothing : more = 0 := by
        simp only [padded, List.length_append, List.length_replicate] at length
        omega
      have wide : places + 1 - (digits n).length = zeros + 1 := by omega
      simpa [nothing, padded, wide, List.replicate_succ] using IsWhole.zero
    · have nothing : places + 1 - (digits n).length = 0 := by omega
      simpa [padded, nothing] using (isWhole_digits n).front more
  · intro none
    have fewer := List.drop_eq_nil_iff.1 none
    omega
  · exact fun c member => isDigit_of_mem_padded (List.mem_of_mem_drop member)

theorem pointAfterFirst_written (n : Nat) : ∃ whole fraction,
    Record.pointAfterFirst (digits n) = whole ++ fraction ∧ IsWhole whole ∧
      IsFraction fraction := by
  have whole := (isWhole_digits n).front 0
  have numeric := isDigit_of_mem_digits (n := n)
  generalize digits n = written at whole numeric
  match written with
  | [] => cases whole
  | [c] => exact ⟨[c], [], rfl, whole, .none⟩
  | c :: d :: rest =>
    refine ⟨[c], '.' :: d :: rest, rfl, whole, .some (List.cons_ne_nil d rest) fun e member => ?_⟩
    exact numeric e (List.mem_cons_of_mem c member)

theorem magnitude_write (format : Record.AmountFormat) (s : Scientific) :
    Magnitude (format.write s) := by
  have tenth : IsFraction ['.', '0'] :=
    .some (List.cons_ne_nil '0' []) (by simpa using show isDigit '0' = true by decide)
  unfold Record.AmountFormat.write
  dsimp only
  split
  · exact .intro .zero tenth .none
  · split
    · unfold Scientific.positional
      split
      · exact .intro (isWhole_digits _) tenth .none
      · obtain ⟨whole, fraction, written, unpadded, places⟩ :=
          withPoint_written (show 1 ≤ (-s.exponent).toNat by omega) s.coefficient
        rw [written, ← List.append_nil fraction]
        exact .intro unpadded places .none
    · obtain ⟨whole, fraction, written, unpadded, places⟩ := pointAfterFirst_written s.coefficient
      rw [written, List.append_assoc]
      generalize s.exponent + (digits s.coefficient).length - 1 = power
      have signed : [if power < 0 then '-' else '+'] ∈ [[], ['+'], ['-']] := by
        split <;> decide
      have letter : 'e' ∈ ['e', 'E'] := by decide
      exact .intro unpadded places (.some letter signed Nat.toDigits_ne_nil isDigit_of_mem_digits)

/-- An amount is a number or null. -/
theorem writes_amount (x : Float) : ∃ v, Writes 1 (Record.amountText x).toList v := by
  unfold Record.amountText
  split
  · rename_i negative mantissa exponent _
    apply writes_number
    have magnitude := magnitude_write Record.amountFormat
      (shortestDigits Record.amountFormat.tie mantissa exponent)
    rw [withSign, String.toList_ofList]
    cases negative
    · have unsigned : [] ∈ [[], ['-']] := by decide
      exact .intro unsigned magnitude
    · have minus : ['-'] ∈ [[], ['-']] := by decide
      exact .intro minus magnitude
  · exact ⟨.null, writes_null⟩

/-! Records. -/

def Readable (depth : Nat) (text : String) : Prop := ∃ v, Writes depth text.toList v

theorem Readable.mono {shallow depth : Nat} {text : String} (readable : Readable shallow text)
    (less : shallow ≤ depth) : Readable depth text := by
  obtain ⟨v, writes⟩ := readable
  obtain ⟨n, rfl⟩ := Nat.exists_eq_add_of_le less
  exact ⟨v, writes.deeper n⟩

theorem fieldTexts {depth : Nat} {pairs : List (String × String)}
    (each : ∀ pair ∈ pairs, Readable depth pair.2) : ∃ fields : List FieldText,
      fields.map (fun f => (f.name, f.text)) = pairs ∧
        ∀ f ∈ fields, Writes depth f.text.toList f.value := by
  induction pairs with
  | nil => exact ⟨[], rfl, by simp⟩
  | cons pair pairs ih =>
    obtain ⟨⟨v, writes⟩, others⟩ := List.forall_mem_cons.1 each
    obtain ⟨fields, same, written⟩ := ih others
    exact ⟨⟨pair.1, pair.2, v⟩ :: fields, by simp [same], List.forall_mem_cons.2 ⟨writes, written⟩⟩

theorem writes_object_of_readable {depth : Nat} {pairs : List (String × String)}
    (filled : pairs ≠ []) (each : ∀ pair ∈ pairs, Readable depth pair.2) :
    ∃ fields, Writes (depth + 1) (Record.object pairs).toList (.object fields) := by
  obtain ⟨fields, rfl, written⟩ := fieldTexts each
  cases fields with
  | nil => contradiction
  | cons first fields => exact ⟨_, writes_object written⟩

theorem Readable.anywhere {depth : Nat} {text : String} (readable : Readable 1 text) :
    Readable (depth + 1) text := readable.mono (Nat.le_add_left 1 depth)

theorem readable_quoted {depth : Nat} (s : String) : Readable (depth + 1) (Record.quoted s) :=
  Readable.anywhere ⟨_, writes_quoted s⟩

theorem readable_amount {depth : Nat} (x : Float) : Readable (depth + 1) (Record.amountText x) :=
  Readable.anywhere (writes_amount x)

theorem readable_object {depth : Nat} {first : String × String} {pairs : List (String × String)}
    (each : ∀ pair ∈ first :: pairs, Readable depth pair.2) :
    Readable (depth + 1) (Record.object (first :: pairs)) := by
  obtain ⟨fields, writes⟩ := writes_object_of_readable (List.cons_ne_nil first pairs) each
  exact ⟨_, writes⟩

theorem readable_typed {depth : Nat} {text : String} (type : String)
    (readable : Readable (depth + 1) text) : Readable (depth + 2) (Record.typed type text) := by
  apply readable_object
  simpa using ⟨readable_quoted type, readable⟩

theorem readable_value (v : NotepadCalculator.Value Float) : Readable 3 (Record.value v) := by
  have amounts (mark text : String) (a : Float) :
      Readable 2 (Record.object [("amount", Record.amountText a), (mark, Record.quoted text)]) := by
    apply readable_object
    simpa using ⟨readable_amount a, readable_quoted text⟩
  match v with
  | .number a => exact readable_typed _ (readable_amount a)
  | .percent a => exact readable_typed _ (readable_amount a)
  | .currency a code => exact readable_typed _ (amounts _ code a)
  | .unit a name => exact readable_typed _ (amounts _ name a)
  | .date moment => exact readable_typed _ (readable_quoted moment.recordText)
  | .text content => exact readable_typed _ (readable_quoted content)

theorem readable_orNull {depth : Nat} {text : Option String}
    (each : ∀ t ∈ text, Readable (depth + 1) t) : Readable (depth + 1) (text.getD "null") := by
  cases text with
  | none => exact Readable.anywhere ⟨_, writes_null⟩
  | some t => exact each t rfl

theorem writes_record (input : String) (outcome : Outcome) (places : Nat) :
    ∃ fields, Writes 4 (Session.record input outcome places).toList (.object fields) := by
  have text (t : Option String) : Readable 3 ((t.map Record.quoted).getD "null") :=
    readable_orNull fun s member => by
      obtain ⟨content, _, rfl⟩ := Option.map_eq_some_iff.1 member
      exact readable_quoted content
  have value : Readable 3 ((outcome.value?.map Record.value).getD "null") :=
    readable_orNull fun s member => by
      obtain ⟨v, _, rfl⟩ := Option.map_eq_some_iff.1 member
      exact readable_value v
  apply writes_object_of_readable (List.cons_ne_nil _ _)
  simpa using ⟨text _, text _, readable_quoted input, value⟩

/-- A record is one object and nothing else. -/
theorem read?_record (input : String) (outcome : Outcome) (places : Nat) :
    ∃ fields, read? (Session.record input outcome places) = some (.object fields) := by
  obtain ⟨fields, writes⟩ := writes_record input outcome places
  have long : 3 ≤ (Session.record input outcome places).toList.length := by
    simp [Session.record, Record.object]
    omega
  have read := writes.reads ((Session.record input outcome places).toList.length - 3) []
    (by simp [Separate])
  rw [List.append_nil] at read
  refine ⟨fields, ?_⟩
  rw [read?]
  have depth : (Session.record input outcome places).toList.length + 1 =
      4 + ((Session.record input outcome places).toList.length - 3) := by omega
  rw [depth, read]
  rfl

end NotepadCalculator.Json
