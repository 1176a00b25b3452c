import Tonbankcard.WebhookVerifiers

/-! Signature headers as texts: their parts, the keys and values of the parts, and what each
parser reads of them. -/
namespace Tonbankcard.Sdk

open Doubles

/-- What stands before the first equals sign of a part. -/
def front (part : List Char) : List Char := part.takeWhile (· ≠ '=')

def behind (part : List Char) : List Char := (part.dropWhile (· ≠ '=')).drop 1

def partKey (part : List Char) : List Char := trim commonSpace (front part)

/-- The value up to the end of the part. -/
def wholeValue (part : List Char) : List Char := trim commonSpace (behind part)

/-- The value up to a second equals sign. -/
def partValue (part : List Char) : List Char := trim commonSpace (front (behind part))

def keyedParts (key : List Char) (parts : List (List Char)) : List (List Char) :=
  parts.filter fun part => partKey part = key

section Parts

theorem cut_of_mem {part : List Char} (member : '=' ∈ part) :
    cut part = some (front part,behind part) := by
  induction part with
  | nil => exact absurd member List.not_mem_nil
  | cons c rest ih =>
    by_cases here : c = '='
    · simp [cut,front,behind,here]
    · have later := (List.mem_cons.mp member).resolve_left (Ne.symm here)
      rw [cut,if_neg here,ih later]
      simp [front,behind,here]

theorem cut_of_notMem {part : List Char} (absent : '=' ∉ part) : cut part = none := by
  induction part with
  | nil => rfl
  | cons c rest ih =>
    have here : c ≠ '=' := fun same => absent (same ▸ List.mem_cons_self)
    have later : '=' ∉ rest := fun member => absent (List.mem_cons_of_mem _ member)
    rw [cut,if_neg here,ih later]
    rfl

theorem eq_front_behind {part : List Char} (member : '=' ∈ part) :
    part = front part ++ '=' :: behind part := by
  induction part with
  | nil => exact absurd member List.not_mem_nil
  | cons c rest ih =>
    by_cases here : c = '='
    · simp [front,behind,here]
    · have later := (List.mem_cons.mp member).resolve_left (Ne.symm here)
      have first : front (c :: rest) = c :: front rest := by simp [front,here]
      have second : behind (c :: rest) = behind rest := by simp [behind,here]
      rw [first,second,List.cons_append,← ih later]

theorem front_notMem (part : List Char) : '=' ∉ front part := by
  intro member
  have apart := List.mem_takeWhile_imp member
  simp at apart

theorem front_of_notMem {s : List Char} (absent : '=' ∉ s) : front s = s := by
  refine List.takeWhile_eq_self_iff.mpr fun c member => ?_
  have apart : c ≠ '=' := fun same => absent (same ▸ member)
  simpa using apart

theorem front_equals {s : List Char} (absent : '=' ∉ s) (rest : List Char) :
    front (s ++ '=' :: rest) = s := by
  induction s with
  | nil => simp [front]
  | cons c s ih =>
    have here : c ≠ '=' := fun same => absent (same ▸ List.mem_cons_self)
    have later := ih fun member => absent (List.mem_cons_of_mem _ member)
    have first : front (c :: (s ++ '=' :: rest)) = c :: front (s ++ '=' :: rest) := by
      simp [front,here]
    rw [List.cons_append,first,later]

/-- The pieces of a part. -/
theorem splitOn_equals {part : List Char} (member : '=' ∈ part) :
    ∃ rest, part.splitOn '=' = front part :: front (behind part) :: rest := by
  have first (s : List Char) : ∃ rest, s.splitOn '=' = front s :: rest := by
    by_cases here : '=' ∈ s
    · refine ⟨(behind s).splitOn '=',?_⟩
      conv_lhs => rw [eq_front_behind here]
      exact List.splitOn_append_cons_self_of_not_mem (front_notMem s) _
    · exact ⟨[],by rw [List.splitOn_eq_singleton here,front_of_notMem here]⟩
  obtain ⟨rest,pieces⟩ := first (behind part)
  refine ⟨rest,?_⟩
  conv_lhs => rw [eq_front_behind member]
  rw [List.splitOn_append_cons_self_of_not_mem (front_notMem part),pieces]

variable {part : List Char}

theorem front_subset (s : List Char) : front s ⊆ s :=
  fun _ member => (List.takeWhile_prefix _).subset member

theorem behind_subset (s : List Char) : behind s ⊆ s :=
  fun _ member => (List.dropWhile_suffix _).subset (List.mem_of_mem_drop member)

theorem printable_front (ascii : ∀ c ∈ part, printable c = true) :
    ∀ c ∈ front part, printable c = true := fun c inside => ascii c (front_subset part inside)

theorem printable_behind (ascii : ∀ c ∈ part, printable c = true) :
    ∀ c ∈ behind part, printable c = true := fun c inside => ascii c (behind_subset part inside)

theorem goField_some (ascii : ∀ c ∈ part, printable c = true) (member : '=' ∈ part) :
    goField part = some (partKey part,wholeValue part) := by
  rw [goField,cut_of_mem member,Option.map_some]
  change some (trim goSpace (front part),trim goSpace (behind part)) = _
  rw [(trim_printable (printable_front ascii)).2.1,(trim_printable (printable_behind ascii)).2.1]
  rfl

theorem pyField_some (ascii : ∀ c ∈ part, printable c = true) (member : '=' ∈ part) :
    pyField part = some (partKey part,wholeValue part) := by
  rw [pyField,cut_of_mem member,Option.map_some]
  change some (trim pySpace (front part),trim pySpace (behind part)) = _
  rw [(trim_printable (printable_front ascii)).2.2,(trim_printable (printable_behind ascii)).2.2]
  rfl

theorem tsField_some (ascii : ∀ c ∈ part, printable c = true) (member : '=' ∈ part)
    (keyed : front part ≠ []) : tsField part = some (partKey part,partValue part) := by
  obtain ⟨rest,pieces⟩ := splitOn_equals member
  have filled : (front part).isEmpty = false := by simpa using keyed
  rw [tsField,pieces]
  simp only [filled,Bool.false_eq_true,if_false]
  rw [(trim_printable (printable_front ascii)).1,
    (trim_printable (printable_front (printable_behind ascii))).1]
  rfl

theorem goField_none (absent : '=' ∉ part) : goField part = none := by
  rw [goField,cut_of_notMem absent,Option.map_none]

theorem pyField_none (absent : '=' ∉ part) : pyField part = none := by
  rw [pyField,cut_of_notMem absent,Option.map_none]

theorem tsField_none (malformed : '=' ∉ part ∨ front part = []) : tsField part = none := by
  by_cases member : '=' ∈ part
  · obtain ⟨rest,pieces⟩ := splitOn_equals member
    rw [tsField,pieces,malformed.resolve_left (not_not_intro member)]
    rfl
  · rw [tsField,List.splitOn_eq_singleton member]

end Parts

namespace HeaderReader

variable {reader : HeaderReader} {parts : List (List Char)}

/-- The parts have their keys and some values. -/
def Reads (reader : HeaderReader) (value : List Char → List Char) (parts : List (List Char)) : Prop :=
  ∀ part ∈ parts, reader.field part = some (partKey part,value part)

/-- All times among the parts are read. -/
def Timed (reader : HeaderReader) (value : List Char → List Char) (parts : List (List Char)) : Prop :=
  ∀ part ∈ keyedParts timeKey parts, ∃ n, reader.time (value part) = .ok n

/-- What is kept behind the parts: the last time and the last signature. -/
structure Kept (reader : HeaderReader) (value : List Char → List Char) (parts : List (List Char))
    (reading : Reading) : Prop where
  timed : reader.Timed value parts
  text : reading.timestampText = ((keyedParts timeKey parts).getLast?.map value).getD []
  timestamp : reading.timestamp =
    (keyedParts timeKey parts).getLast?.bind fun part => (reader.time (value part)).toOption
  signature : reading.versionedSignatures.get signatureVersion =
    (keyedParts signatureVersion parts).getLast?.map value

theorem keyedParts_concat (key part : List Char) (parts : List (List Char)) :
    keyedParts key (parts ++ [part]) =
      if partKey part = key then keyedParts key parts ++ [part] else keyedParts key parts := by
  unfold keyedParts
  rw [List.filter_append]
  by_cases same : partKey part = key <;> simp [same]

theorem Kept.start (value : List Char → List Char) : Kept reader value [] .start where
  timed _ member := absurd member List.not_mem_nil
  text := rfl
  timestamp := rfl
  signature := rfl

theorem Kept.concat (kept : Kept reader value parts reading)
    (field : reader.field part = some (partKey part,value part))
    (step : reader.readPart reading part = .ok next) :
    Kept reader value (parts ++ [part]) next := by
  rw [readPart,field] at step
  simp only at step
  split at step
  · rename_i time
    have apart : ¬ partKey part = signatureVersion := by rw [time]; decide
    obtain ⟨n,read⟩ : ∃ n, reader.time (value part) = .ok n := by
      cases read : reader.time (value part) with
      | error reason => rw [read] at step; exact absurd step (by simp [Except.map])
      | ok n => exact ⟨n,rfl⟩
    rw [read] at step
    cases Except.ok.inj step
    refine ⟨?_,?_,?_,?_⟩
    · intro other member
      rw [keyedParts_concat,if_pos time] at member
      rcases List.mem_append.mp member with earlier | last
      · exact kept.timed other earlier
      · exact ⟨n,List.mem_singleton.mp last ▸ read⟩
    · rw [keyedParts_concat,if_pos time,List.getLast?_concat]
      rfl
    · rw [keyedParts_concat,if_pos time,List.getLast?_concat,Option.bind_some,read]
      rfl
    · rw [keyedParts_concat,if_neg apart]
      exact kept.signature
  · rename_i other
    have apart : ¬ partKey part = timeKey := other
    have timed : reader.Timed value (parts ++ [part]) := by
      unfold Timed
      rw [keyedParts_concat,if_neg apart]
      exact kept.timed
    split at step
    · cases Except.ok.inj step
      refine ⟨timed,?_,?_,?_⟩
      · rw [keyedParts_concat,if_neg apart]
        exact kept.text
      · rw [keyedParts_concat,if_neg apart]
        exact kept.timestamp
      · rw [keyedParts_concat,JsMap.get_set]
        by_cases same : partKey part = signatureVersion
        · rw [if_pos same.symm,if_pos same,List.getLast?_concat]
          rfl
        · rw [if_neg (Ne.symm same),if_neg same]
          exact kept.signature
    · rename_i unversioned
      have unsigned : ¬ partKey part = signatureVersion := by
        intro same
        rw [same] at unversioned
        exact unversioned rfl
      cases Except.ok.inj step
      refine ⟨timed,?_,?_,?_⟩
      · rw [keyedParts_concat,if_neg apart]
        exact kept.text
      · rw [keyedParts_concat,if_neg apart]
        exact kept.timestamp
      · rw [keyedParts_concat,if_neg unsigned]
        exact kept.signature

/-- The run over the parts, by induction from the last. -/
theorem kept_of_readParts (reads : reader.Reads value parts)
    (run : parts.foldlM reader.readPart .start = .ok reading) : Kept reader value parts reading := by
  induction parts using List.reverseRecOn generalizing reading with
  | nil =>
    cases Except.ok.inj run
    exact Kept.start value
  | append_singleton parts part ih =>
    rw [List.foldlM_append] at run
    cases before : parts.foldlM reader.readPart .start with
    | error reason => rw [before] at run; exact absurd run (by simp [bind,Except.bind])
    | ok middle =>
      have kept := ih (fun other member => reads other (List.mem_append_left _ member)) before
      have field := reads part (List.mem_append_right _ List.mem_cons_self)
      rw [before] at run
      cases step : reader.readPart middle part with
      | error reason => exact absurd run (by simp [bind,Except.bind,step])
      | ok next =>
        have last : next = reading := by simpa [bind,Except.bind,pure,Except.pure,step] using run
        exact last ▸ kept.concat field step

theorem readPart_ok (field : reader.field part = some (key,val))
    (timed : key = timeKey → ∃ n, reader.time val = .ok n) (reading : Reading) :
    ∃ next, reader.readPart reading part = .ok next := by
  rw [readPart,field]
  simp only
  split
  · rename_i time
    obtain ⟨n,read⟩ := timed time
    exact ⟨_,by rw [read]; rfl⟩
  · split
    · exact ⟨_,rfl⟩
    · exact ⟨_,rfl⟩

theorem readParts_ok (reads : reader.Reads value parts) (timed : reader.Timed value parts)
    (reading : Reading) : ∃ last, parts.foldlM reader.readPart reading = .ok last := by
  induction parts generalizing reading with
  | nil => exact ⟨reading,rfl⟩
  | cons part rest ih =>
    obtain ⟨next,step⟩ := readPart_ok (reads part List.mem_cons_self) (fun time =>
      timed part (List.mem_filter.mpr ⟨List.mem_cons_self,decide_eq_true time⟩)) reading
    have later : reader.Timed value rest := fun other member =>
      timed other (List.mem_filter.mpr
        ⟨List.mem_cons_of_mem _ (List.mem_filter.mp member).1,(List.mem_filter.mp member).2⟩)
    obtain ⟨last,run⟩ := ih (fun other member => reads other (List.mem_cons_of_mem _ member)) later next
    refine ⟨last,?_⟩
    rw [List.foldlM_cons,step]
    exact run

theorem readParts_malformed (member : part ∈ parts) (malformed : reader.field part = none)
    (reading : Reading) : ∀ last, parts.foldlM reader.readPart reading ≠ .ok last := by
  intro last run
  induction parts generalizing reading with
  | nil => exact absurd member List.not_mem_nil
  | cons other rest ih =>
    rw [List.foldlM_cons] at run
    rcases List.mem_cons.mp member with rfl | later
    · have refused : reader.readPart reading part = .error .malformedSignature := by
        rw [readPart,malformed]
      rw [refused] at run
      exact absurd run (by simp [bind,Except.bind])
    · cases step : reader.readPart reading other with
      | error reason => rw [step] at run; exact absurd run (by simp [bind,Except.bind])
      | ok next =>
        rw [step] at run
        exact ih later next run

theorem parse_eq_ok_iff {value : List Char} {parsed : ParsedSignature} :
    reader.parse value = .ok parsed ↔
      ∃ reading, (value.splitOn ',').foldlM reader.readPart .start = .ok reading ∧
        reading.timestamp = some parsed.timestamp ∧
        reading.timestampText = parsed.timestampText ∧
        reading.versionedSignatures = parsed.versionedSignatures ∧
        parsed.versionedSignatures.entries ≠ [] := by
  unfold parse
  cases run : (value.splitOn ',').foldlM reader.readPart .start with
  | error reason => simp [bind,Except.bind]
  | ok reading =>
    obtain ⟨timestamp,text,signatures⟩ := reading
    obtain ⟨time,timeText,versioned⟩ := parsed
    cases timestamp with
    | none => simp [bind,Except.bind]
    | some n =>
      by_cases none : signatures.entries = []
      · have refused : signatures.entries.isEmpty = true := List.isEmpty_iff.mpr none
        simp only [bind,Except.bind,refused,if_true,reduceCtorEq,false_iff]
        rintro ⟨reading,same,-,-,shared,filled⟩
        cases Except.ok.inj same
        exact filled (shared ▸ none)
      · have kept : signatures.entries.isEmpty = false := by simpa using none
        simp only [bind,Except.bind,kept,Bool.false_eq_true,if_false,Except.ok.injEq,
          ParsedSignature.mk.injEq]
        constructor
        · rintro ⟨rfl,rfl,rfl⟩
          exact ⟨_,rfl,rfl,rfl,rfl,none⟩
        · rintro ⟨reading,rfl,time,text,shared,-⟩
          exact ⟨Option.some.inj time,text,shared⟩

/-- What a header with a signature is read to. -/
theorem parse_signed (reads : reader.Reads value (header.splitOn ','))
    (Q : Nat → List Char → List Char → Prop) :
    (∃ parsed, reader.parse header = .ok parsed ∧
      ∃ provided, parsed.versionedSignatures.get signatureVersion = some provided ∧
        Q parsed.timestamp parsed.timestampText provided) ↔
    reader.Timed value (header.splitOn ',') ∧
      ∃ time ∈ (keyedParts timeKey (header.splitOn ',')).getLast?,
      ∃ proof ∈ (keyedParts signatureVersion (header.splitOn ',')).getLast?,
      ∃ n, reader.time (value time) = .ok n ∧ Q n (value time) (value proof) := by
  constructor
  · rintro ⟨parsed,accepted,provided,found,holds⟩
    obtain ⟨reading,run,timestamp,text,signatures,-⟩ := parse_eq_ok_iff.mp accepted
    have kept := kept_of_readParts reads run
    refine ⟨kept.timed,?_⟩
    obtain ⟨time,last,read⟩ := Option.bind_eq_some_iff.mp (kept.timestamp.symm.trans timestamp)
    rw [← signatures,kept.signature] at found
    obtain ⟨proof,signed,rfl⟩ := Option.map_eq_some_iff.mp found
    have shown := kept.text
    rw [last,Option.map_some,Option.getD_some] at shown
    refine ⟨time,last,proof,signed,parsed.timestamp,?_,?_⟩
    · cases result : reader.time (value time) with
      | error reason => rw [result] at read; exact absurd read (by simp [Except.toOption])
      | ok n =>
        rw [result] at read
        rw [Option.some.inj read]
    · rw [← shown,text]
      exact holds
  · rintro ⟨timed,time,last,proof,signed,n,read,holds⟩
    obtain ⟨reading,run⟩ := readParts_ok reads timed .start
    have kept := kept_of_readParts reads run
    have found := kept.signature
    rw [Option.mem_def.mp signed,Option.map_some] at found
    have shown := kept.text
    rw [Option.mem_def.mp last,Option.map_some,Option.getD_some] at shown
    have timestamp := kept.timestamp
    rw [Option.mem_def.mp last,Option.bind_some,read] at timestamp
    refine ⟨⟨n,reading.timestampText,reading.versionedSignatures⟩,parse_eq_ok_iff.mpr
      ⟨reading,run,timestamp,rfl,rfl,?_⟩,value proof,found,shown ▸ holds⟩
    intro none
    have entries : reading.versionedSignatures.entries = [] := none
    rw [JsMap.get,entries] at found
    exact absurd found (by simp [JsMap.getEntry])

theorem readPart_time (step : reader.readPart reading part = .ok next)
    (timestamp : next.timestamp = some n) :
    reading.timestamp = some n ∨ ∃ val, reader.time val = .ok n := by
  unfold readPart at step
  split at step
  · cases step
  · rename_i key val _
    split at step
    · cases read : reader.time val with
      | error reason => rw [read] at step; cases step
      | ok m =>
        rw [read] at step
        cases Except.ok.inj step
        exact .inr ⟨val,Option.some.inj timestamp ▸ read⟩
    · split at step <;> cases Except.ok.inj step <;> exact .inl timestamp

/-- A timestamp was the time of a value. -/
theorem parse_time (accepted : reader.parse header = .ok parsed) :
    ∃ val, reader.time val = .ok parsed.timestamp := by
  obtain ⟨reading,run,timestamp,-⟩ := parse_eq_ok_iff.mp accepted
  have traced (parts : List (List Char)) (start last : Reading)
      (run : parts.foldlM reader.readPart start = .ok last)
      (timestamp : last.timestamp = some parsed.timestamp) :
      start.timestamp = some parsed.timestamp ∨ ∃ val, reader.time val = .ok parsed.timestamp := by
    induction parts generalizing start with
    | nil =>
      cases Except.ok.inj run
      exact .inl timestamp
    | cons part rest ih =>
      rw [List.foldlM_cons] at run
      cases step : reader.readPart start part with
      | error reason => rw [step] at run; cases run
      | ok next =>
        rw [step] at run
        rcases ih next run with earlier | read
        · exact readPart_time step earlier
        · exact .inr read
  exact (traced _ _ _ run timestamp).resolve_left fun none => by cases none

/-- A parser sees of the parts of a header only its fields. -/
theorem parse_congr (same : (s.splitOn ',').map reader.field = (t.splitOn ',').map reader.field) :
    reader.parse s = reader.parse t := by
  let step (reading : Reading) (field : Option (List Char × List Char)) : Except Rejection Reading :=
    HeaderReader.readPart ⟨fun _ => field,reader.time⟩ reading []
  have run (parts : List (List Char)) : parts.foldlM reader.readPart Reading.start =
      (parts.map reader.field).foldlM step Reading.start := by
    rw [List.foldlM_map]
    rfl
  rw [parse,parse,run,run,same]

end HeaderReader

section Times

/-- A decimal text of a whole number from 1 to 2^53 - 1, with or without leading zeros. -/
def isTime (val : List Char) : Prop :=
  isDecimal val = true ∧ 0 < decimalValue val ∧ decimalValue val ≤ maxSafeInteger

theorem isTime_notMem {val : List Char} (time : isTime val) : '=' ∉ val :=
  fun member => absurd (isDecimal_digit time.1 member) (by decide)

theorem nearest_le_iff {n bound : Nat} (small : bound < 2^53) :
    nearest n ≤ (bound : ℚ) ↔ n ≤ bound := by
  have cast : ((n : ℤ) : ℚ) = n := Int.cast_natCast n
  have size : (bound : ℚ) < 2^53 := by exact_mod_cast small
  have magnitude : |nearest (n : ℚ)| = nearest n := abs_of_nonneg (nearest_nonneg n.cast_nonneg)
  have crossing := lt_nearest_iff (n := n) size
  rw [cast,magnitude,abs_of_nonneg (Nat.cast_nonneg n),← not_le,← not_le,not_iff_not] at crossing
  rw [crossing]
  exact Nat.cast_le

theorem tsTime_eq_ok_iff {val : List Char} {n : Nat} :
    tsTime val = .ok n ↔ isTime val ∧ n = decimalValue val := by
  unfold tsTime isTime
  by_cases decimal : isDecimal val = true
  · have bound : maxSafeInteger < 2^53 := by decide
    simp only [decimal,Bool.not_true,Bool.false_eq_true,if_false,true_and]
    by_cases safe : decimalValue val ≤ maxSafeInteger
    · have exact_ : nearest (decimalValue val : ℚ) = decimalValue val := by
        have whole := nearest_int (n := decimalValue val) (by
          rw [abs_of_nonneg (Int.natCast_nonneg _)]
          omega)
        rwa [Int.cast_natCast] at whole
      rw [exact_]
      by_cases zero : decimalValue val = 0
      · simp [zero]
      · have positive : 0 < decimalValue val := Nat.pos_of_ne_zero zero
        simp [isSafe,positive,zero,safe,eq_comm]
    · have far : ¬ |nearest (decimalValue val : ℚ)| ≤ maxSafeInteger := by
        rw [abs_of_nonneg (nearest_nonneg (Nat.cast_nonneg _)),nearest_le_iff bound]
        exact safe
      simp [isSafe,far,safe]
  · simp [decimal]

theorem goTime_eq_ok_iff {val : List Char} {n : Nat} :
    goTime val = .ok n ↔ isTime val ∧ n = decimalValue val := by
  unfold goTime isTime
  by_cases decimal : isDecimal val = true
  · rw [parseInt_decimal decimal]
    have bound : maxSafeInteger < 2^63 := by decide
    by_cases safe : decimalValue val ≤ maxSafeInteger
    · rw [if_pos (by omega)]
      by_cases zero : decimalValue val = 0
      · simp [zero]
      · have positive : 0 < decimalValue val := Nat.pos_of_ne_zero zero
        have inside : ¬ (maxSafeInteger : ℤ) < decimalValue val := by omega
        simp [decimal,positive,zero,safe,inside,eq_comm]
    · by_cases fits : decimalValue val < 2^63
      · have outside : (maxSafeInteger : ℤ) < decimalValue val := by omega
        rw [if_pos fits]
        simp [outside,safe]
      · rw [if_neg fits]
        simp [safe]
  · cases parseInt val <;> simp [decimal]

theorem pyTime_eq_ok_iff {Payload : Type} {host : WebhookHost Payload} {val : List Char} {n : Nat} :
    pyTime host val = .ok n ↔
      (isTime val ∧ withinDigits host.intMaxStrDigits val) ∧ n = decimalValue val := by
  unfold pyTime isTime withinDigits
  by_cases decimal : isDecimal val = true
  · by_cases limited : host.intMaxStrDigits ≠ 0 ∧ host.intMaxStrDigits < val.length
    · have beyond : ¬ (host.intMaxStrDigits = 0 ∨ val.length ≤ host.intMaxStrDigits) := by omega
      rw [if_neg (by simp [decimal]),if_pos limited]
      simp [beyond]
    · have within : host.intMaxStrDigits = 0 ∨ val.length ≤ host.intMaxStrDigits := by omega
      rw [if_neg (by simp [decimal]),if_neg limited]
      by_cases outside : decimalValue val = 0 ∨ maxSafeInteger < decimalValue val
      · have refused : ¬ (0 < decimalValue val ∧ decimalValue val ≤ maxSafeInteger) := by omega
        simp only [outside,if_true,reduceCtorEq,false_iff]
        exact fun holds => refused holds.1.1.2
      · have accepted : 0 < decimalValue val ∧ decimalValue val ≤ maxSafeInteger := by omega
        simp only [outside,if_false,Except.ok.injEq,decimal,accepted,within,true_and,and_true]
        exact eq_comm
  · simp [decimal]

end Times

section Go

/-- The loop of its own finds the text that the parser read. -/
theorem goTimestampText_eq {parts : List (List Char)} (reads : ∀ part ∈ parts,
      trim goSpace ((cut part).getD (part,[])).1 = partKey part ∧
      trim goSpace ((cut part).getD (part,[])).2 = wholeValue part) :
    parts.foldl (fun text part =>
      let (key,val) := (cut part).getD (part,[])
      if trim goSpace key = timeKey then trim goSpace val else text) [] =
      ((keyedParts timeKey parts).getLast?.map wholeValue).getD [] := by
  induction parts using List.reverseRecOn with
  | nil => rfl
  | append_singleton parts part ih =>
    obtain ⟨key,val⟩ := reads part (List.mem_append_right _ List.mem_cons_self)
    rw [List.foldl_append,ih fun other member => reads other (List.mem_append_left _ member),
      HeaderReader.keyedParts_concat]
    simp only [List.foldl_cons,List.foldl_nil,key,val]
    split
    · rw [List.getLast?_concat]
      rfl
    · rfl

end Go

section Python

theorem partKey_blank {c : Char} (blank : pySpace c = true) (part : List Char) :
    pyField (c :: part) = pyField part ∧ pyField (part ++ [c]) = pyField part := by
  have apart : c ≠ '=' := by rintro rfl; exact absurd blank (by decide)
  have behind : cut (part ++ [c]) = (cut part).map fun (key,val) => (key,val ++ [c]) := by
    induction part with
    | nil => simp [cut,apart]
    | cons d rest ih =>
      rw [List.cons_append,cut,cut,ih]
      split
      · rfl
      · cases cut rest <;> rfl
  constructor
  · rw [pyField,pyField,cut,if_neg apart]
    cases cut part with
    | none => rfl
    | some pair => simp [trim_cons blank]
  · rw [pyField,pyField,behind]
    cases cut part with
    | none => rfl
    | some pair => simp [trim_concat blank]

/-- A field that blanks around a part do not change is not changed by blanks around the header. -/
theorem fields_trim {α : Type} {space : Char → Bool} {field : List Char → α}
    (comma : space ',' = false)
    (same : ∀ c part, space c = true → field (c :: part) = field part ∧
      field (part ++ [c]) = field part) (s : List Char) :
    ((trim space s).splitOn ',').map field = (s.splitOn ',').map field := by
  have apart {c : Char} (blank : space c = true) : c ≠ ',' := by
    rintro rfl
    exact absurd blank (by simp [comma])
  have front (s : List Char) : ((s.dropWhile space).splitOn ',').map field =
      (s.splitOn ',').map field := by
    induction s with
    | nil => rfl
    | cons c rest ih =>
      by_cases blank : space c = true
      · rw [List.dropWhile_cons_of_pos blank,ih,List.splitOn_cons_eq_if_modifyHead,
          if_neg (by simpa using apart blank)]
        obtain ⟨part,parts,pieces⟩ := List.exists_cons_of_ne_nil (List.splitOn_ne_nil ',' rest)
        rw [pieces,List.modifyHead_cons,List.map_cons,List.map_cons,(same c part blank).1]
      · rw [List.dropWhile_cons_of_neg blank]
  have back {c : Char} (blank : space c = true) (s : List Char) :
      ((s ++ [c]).splitOn ',').map field = (s.splitOn ',').map field := by
    induction length : s.length using Nat.strong_induction_on generalizing s with
    | _ n ih =>
      by_cases member : ',' ∈ s
      · obtain ⟨before,after,rfl⟩ := List.append_of_mem member
        rw [List.append_assoc,List.cons_append,List.splitOn_append_cons_self,
          List.splitOn_append_cons_self,List.map_append,List.map_append,
          ih after.length (by simp at length; omega) after rfl]
      · have absent : ',' ∉ s ++ [c] := by simp [member,(apart blank).symm]
        rw [List.splitOn_eq_singleton member,List.splitOn_eq_singleton absent,List.map_singleton,
          List.map_singleton,(same c s blank).2]
  have ending (s : List Char) : ((s.rdropWhile space).splitOn ',').map field =
      (s.splitOn ',').map field := by
    induction s using List.reverseRecOn with
    | nil => rfl
    | append_singleton s c ih =>
      rw [List.rdropWhile_concat]
      split
      · rename_i blank
        rw [ih,back blank]
      · rfl
  rw [trim,ending,front]

/-- Python strips the header before it parses it, and would parse it the same. -/
theorem pyParse_trim {Payload : Type} (host : WebhookHost Payload) (value : List Char) :
    pyParseSignatureHeader host (trim pySpace value) = pyParseSignatureHeader host value :=
  HeaderReader.parse_congr (fields_trim rfl (fun _ part blank => partKey_blank blank part) value)

end Python

end Tonbankcard.Sdk
