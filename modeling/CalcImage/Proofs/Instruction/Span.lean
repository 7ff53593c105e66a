import CalcImage.Instruction.Decode
import CalcImage.Proofs.Instruction.Marker
import CalcImage.Proofs.Memory.Order

/-!
# The bytes that an instruction takes

The first bytes of an instruction tell how many it has (`Tape.span`). Reading takes just as many off a tape
(`read_of_span`), and it fails when the walk has no step for each of them (`read_of_short`). So decoding at a location
of memory succeeds exactly when the walk can step over the instruction there, and then the instruction is all that it
steps over (`decode_span`). A global instruction is the marker that is read at the same place (`marker_read_of_read`).
-/

namespace CalcImage

/-- The operand bytes that an opcode and the tape after it tell; none when the tape ends before the byte that tells. -/
def Layout.extent (layout : Layout) (opcode : UInt8) (t : Tape) : Option Nat :=
  match layout with
  | .bytes count => some count
  | .digits => some (t.takeWhile Instruction.isDigitByte).length
  | .counted header => t[header - 1]?.map fun last => header + Instruction.textLength last
  | .announced => some (Instruction.textLength opcode)

/-- The bytes of the instruction at the head of a tape, as its first bytes tell: the opcode, a run of digit bytes, or a
byte above 240 after the opcode, which stands for as many more. None when the tape ends before the byte that tells. -/
def Tape.span : Tape → Option Nat
  | [] => none
  | opcode :: t =>
    let n := opcode.toNat
    if n ≤ 0x0F then some 1
    else if n ≤ 0x1A then some ((opcode :: t).takeWhile Instruction.isDigitByte).length
    else if n ≤ 0x1C then some 1
    else if n ≤ 0x1F then t[0]?.map fun second => 2 + Instruction.textLength second
    else if n ≤ 0x8F then some 1
    else if n ≤ 0xBF then some 2
    else if n ≤ 0xCD then t[1]?.map fun third => 3 + Instruction.textLength third
    else if n ≤ 0xCF then some 2
    else if n ≤ 0xEF then some 3
    else some (1 + Instruction.textLength opcode)

namespace Shape

/-- The layouts of the opcodes, range by range. -/
theorem layout_ofOpcode (opcode : UInt8) :
    (ofOpcode opcode).layout =
      if opcode.toNat ≤ 0x0F then .bytes 0
      else if opcode.toNat ≤ 0x1A then .digits
      else if opcode.toNat ≤ 0x1C then .bytes 0
      else if opcode.toNat ≤ 0x1F then .counted 1
      else if opcode.toNat ≤ 0x8F then .bytes 0
      else if opcode.toNat ≤ 0xBF then .bytes 1
      else if opcode.toNat ≤ 0xCD then .counted 2
      else if opcode.toNat ≤ 0xCF then .bytes 1
      else if opcode.toNat ≤ 0xEF then .bytes 2
      else .announced := by
  revert opcode
  apply forall_byte
  decide +kernel

theorem ofOpcode_eq_global_iff (opcode : UInt8) :
    ofOpcode opcode = .global ↔ 0xC0 ≤ opcode.toNat ∧ opcode.toNat ≤ 0xCD := by
  revert opcode
  apply forall_byte
  decide +kernel

/-- Where one byte announces others there is such a byte. -/
theorem header_pos {opcode : UInt8} {header : Nat} (layout : (ofOpcode opcode).layout = .counted header) :
    0 < header := by
  rw [layout_ofOpcode] at layout
  grind

theorem layout_eq_digits_iff (s : Shape) : s.layout = .digits ↔ s = .digits := by
  cases s <;> decide

/-- In the table of opcodes a byte stands at its own number. -/
theorem ofNumber_toNat (opcode : UInt8) : ofNumber opcode.toNat = .ok (ofOpcode opcode) := by
  have := opcode.toNat_lt
  unfold ofNumber
  rw [if_pos (by omega), show ((opcode.toNat : Int) % 256).toNat = opcode.toNat by omega, UInt8.ofNat_toNat]

end Shape

namespace Tape

theorem span_cons (opcode : UInt8) (t : Tape) :
    span (opcode :: t) = ((Shape.ofOpcode opcode).layout.extent opcode t).map (· + 1) := by
  -- Both sides go through the ranges of opcodes in the same order.
  have range {c : Prop} [Decidable c] {a b : Option Nat} {l l' : Layout}
      (inside : c → a = (l.extent opcode t).map (· + 1)) (outside : ¬c → b = (l'.extent opcode t).map (· + 1)) :
      (if c then a else b) = ((if c then l else l').extent opcode t).map (· + 1) := by
    by_cases h : c
    · simpa only [if_pos h] using inside h
    · simpa only [if_neg h] using outside h
  have counted (header : Nat) (last : Option UInt8) :
      (last.map fun b => header + 1 + Instruction.textLength b) =
        (last.map fun b => header + Instruction.textLength b).map (· + 1) := by
    simp only [Option.map_map, Function.comp_def, Nat.add_right_comm]
  rw [Shape.layout_ofOpcode]
  refine range (fun _ => rfl) fun above => ?_
  refine range ?digits fun _ => ?_
  case digits =>
    intro below
    have digit : Instruction.isDigitByte opcode = true := by
      simp only [Instruction.isDigitByte, Bool.and_eq_true, decide_eq_true_eq, UInt8.le_iff_toNat_le]
      change 0x10 ≤ opcode.toNat ∧ opcode.toNat ≤ 0x1A
      omega
    simp [digit, Layout.extent]
  refine range (fun _ => rfl) fun _ => ?_
  refine range (fun _ => counted 1 t[0]?) fun _ => ?_
  refine range (fun _ => rfl) fun _ => ?_
  refine range (fun _ => rfl) fun _ => ?_
  refine range (fun _ => counted 2 t[1]?) fun _ => ?_
  refine range (fun _ => rfl) fun _ => ?_
  refine range (fun _ => rfl) fun _ => ?_
  rw [Layout.extent, Option.map_some, Nat.add_comm]

end Tape

namespace Instruction

variable {opcode : UInt8} {t : Tape}

/-- Bytes with as many after them as the last one announces are taken in one go. -/
theorem takeCounted_eq {header : Nat} (pos : 0 < header) (t : Tape) :
    takeCounted header t =
      match t[header - 1]? with
      | none => .error Tape.ranOut
      | some last => Tape.take (header + textLength last) t := by
  unfold takeCounted
  rcases Nat.lt_or_ge t.length header with short | enough
  · rw [Tape.take_of_lt short, List.getElem?_eq_none (by omega)]
  · rw [Tape.take_of_le enough]
    have inside : header - 1 < t.length := by omega
    have last : (List.take header t).getLastD 0 = t[header - 1] := by
      rw [List.getLastD_eq_getLast?, List.getLast?_take, if_neg (by omega), List.getElem?_eq_getElem inside]
      rfl
    rw [List.getElem?_eq_getElem inside]
    dsimp only
    rw [last]
    rcases Nat.lt_or_ge t.length (header + textLength t[header - 1]) with short | enough'
    · rw [Tape.take_of_lt short, Tape.take_of_lt (by rw [List.length_drop]; omega)]
    · rw [Tape.take_of_le enough', Tape.take_of_le (by rw [List.length_drop]; omega)]
      dsimp only
      rw [List.take_add, List.drop_drop]

/-- Whatever the layout, the operands are taken in one go. -/
theorem readOperands_eq (opcode : UInt8) (t : Tape) :
    readOperands opcode t =
      match (Shape.ofOpcode opcode).layout.extent opcode t with
      | none => .error Tape.ranOut
      | some count => Tape.take count t := by
  unfold readOperands
  cases layout : (Shape.ofOpcode opcode).layout with
  | bytes count => rfl
  | digits =>
    have parts := Tape.take_append (t.takeWhile isDigitByte) (t.dropWhile isDigitByte)
    rw [List.takeWhile_append_dropWhile] at parts
    exact parts.symm
  | counted header =>
    simp only [takeCounted_eq (Shape.header_pos layout), Layout.extent]
    cases t[header - 1]? <;> rfl
  | announced => rfl

theorem read_cons (opcode : UInt8) (t : Tape) :
    read (opcode :: t) =
      match (Shape.ofOpcode opcode).layout.extent opcode t with
      | none => .error Tape.ranOut
      | some count =>
        if count < t.length then .ok (⟨opcode, List.take count t⟩, List.drop count t) else .error Tape.ranOut := by
  rw [read, readOperands_eq]
  cases (Shape.ofOpcode opcode).layout.extent opcode t with
  | none => rfl
  | some count =>
    dsimp only
    rcases Nat.lt_trichotomy count t.length with inside | rfl | beyond
    · have more : t.drop count ≠ [] := by
        simpa using inside
      rw [Tape.take_of_le (Nat.le_of_lt inside), if_pos inside]
      dsimp only
      rw [Tape.standing_of_ne_nil more]
      rfl
    · simp [Tape.take_of_le, Tape.standing, Except.map]
    · rw [Tape.take_of_lt beyond, if_neg (by omega)]

/-- The instruction at the head of a tape takes the bytes that it tells, when something follows them. -/
theorem read_of_span {t : Tape} {size : Nat} (span : t.span = some size) (long : size < t.length) :
    ∃ i, read t = .ok (i, t.drop size) ∧ i.bytes = List.take size t := by
  cases t with
  | nil => cases span
  | cons opcode t =>
    rw [Tape.span_cons, Option.map_eq_some_iff] at span
    obtain ⟨count, extent, rfl⟩ := span
    rw [List.length_cons] at long
    refine ⟨⟨opcode, List.take count t⟩, ?_, rfl⟩
    simp only [read_cons, extent, if_pos (show count < t.length by omega)]
    rfl

/-- An instruction that is as long as its first bytes tell is read back. -/
theorem read_append {i : Instruction} {rest : Tape} (span : Tape.span (i.bytes ++ rest) = some i.size)
    (more : rest ≠ []) : read (i.bytes ++ rest) = .ok (i, rest) := by
  have more_pos := List.length_pos_iff.2 more
  have long : i.size < (i.bytes ++ rest).length := by
    rw [List.length_append, size]
    omega
  obtain ⟨i', taken, bytes⟩ := read_of_span span long
  rw [size, List.take_left] at bytes
  rw [size, List.drop_left] at taken
  simp only [Instruction.bytes, List.cons.injEq] at bytes
  obtain ⟨opcode, operands⟩ := i
  obtain ⟨opcode', operands'⟩ := i'
  obtain ⟨rfl, rfl⟩ := bytes
  exact taken

/-- Nothing is read when too little follows. -/
theorem read_of_short {t : Tape} (short : ∀ size, t.span = some size → t.length ≤ size) :
    read t = .error Tape.ranOut := by
  cases t with
  | nil => rfl
  | cons opcode t =>
    rw [read_cons]
    cases extent : (Shape.ofOpcode opcode).layout.extent opcode t with
    | none => rfl
    | some count =>
      have long := short (count + 1) (by rw [Tape.span_cons, extent]; rfl)
      rw [List.length_cons] at long
      exact if_neg (by omega)

/-- What was read has the bytes that the tape tells. -/
theorem span_of_read {t rest : Tape} {i : Instruction} (taken : read t = .ok (i, rest)) : t.span = some i.size := by
  by_cases long : ∃ size, t.span = some size ∧ size < t.length
  · obtain ⟨size, span, long⟩ := long
    obtain ⟨i', taken', bytes⟩ := read_of_span span long
    rw [taken'] at taken
    cases taken
    rw [span, Instruction.size, bytes, List.length_take_of_le (Nat.le_of_lt long)]
  · have failed : read t = .error Tape.ranOut :=
      read_of_short fun size span => Nat.le_of_not_lt fun inside => long ⟨size, span, inside⟩
    rw [failed] at taken
    cases taken

/-- A global instruction has the bytes of a marker. -/
theorem bytes_marker {t rest : Tape} {i : Instruction} (taken : read t = .ok (i, rest)) (global : i.shape = .global) :
    i.marker.bytes = i.bytes ∧ i.marker.body.length = Marker.bodyLength i.marker.third := by
  obtain ⟨parts, -⟩ := eq_append_of_read taken
  have span := span_of_read taken
  obtain ⟨opcode, operands⟩ := i
  have layout : (Shape.ofOpcode opcode).layout = .counted 2 := congrArg Shape.layout global
  rw [parts, bytes, List.cons_append, Tape.span_cons, layout, Layout.extent] at span
  simp only [Option.map_map, Option.map_eq_some_iff, size, bytes, List.length_cons, Function.comp_apply,
    Nat.add_right_cancel_iff] at span
  obtain ⟨third, here, count⟩ := span
  -- Two bytes come before those that the third one announces.
  obtain ⟨second, third', body, rfl⟩ : ∃ second third body, operands = second :: third :: body := by
    cases operands with
    | nil => simp at count
    | cons second operands =>
      cases operands with
      | nil =>
        simp at count
        omega
      | cons third body => exact ⟨second, third, body, rfl⟩
  obtain rfl : third' = third := by simpa using here
  simp only [List.length_cons] at count
  refine ⟨rfl, ?_⟩
  change body.length = textLength third'
  omega

/-- The marker that stands where a global instruction is read. -/
theorem marker_read_of_read {t rest : Tape} {i : Instruction} (taken : read t = .ok (i, rest))
    (global : i.shape = .global) : Marker.read t = .ok (some (i.marker, rest)) := by
  obtain ⟨parts, more⟩ := eq_append_of_read taken
  obtain ⟨bytes, body⟩ := bytes_marker taken global
  rw [parts, ← bytes]
  exact Marker.read_append (m := i.marker) global body more

/-- The name that the text of an instruction takes from a table, for the shapes whose names stand in one. -/
def tableName (i : Instruction) : Option String :=
  match i.shape with
  | .fixed => some (fixedName i.opcode)
  | .alphaBranch => some (alphaName i.opcode)
  | .register => some (registerName i.opcode)
  | .display => some (displayName i.opcode)
  | .flag => some (flagName i.opcode)
  | _ => none

/-- No opcode misses its table. -/
theorem tableName_ne_empty (i : Instruction) : i.tableName ≠ some "" := by
  obtain ⟨opcode, operands⟩ := i
  unfold tableName shape
  dsimp only
  revert opcode
  apply forall_byte
  decide +kernel

theorem isEnd_iff {i : Instruction} : i.isEnd = true ↔ i.shape = .global ∧ i.marker.third.toNat < 240 := by
  have label : i.marker.isLabel = true ↔ 240 ≤ i.marker.third.toNat := by
    rw [← Marker.kind_eq_label_iff]
    exact beq_iff_eq
  rw [isEnd, Bool.and_eq_true, beq_iff_eq, Bool.not_eq_true', ← Bool.not_eq_true, label, Nat.not_le]

end Instruction

namespace Image

open Walk

variable {img : Image} {loc : Nat}

@[simp] theorem length_tapeAt (img : Image) (loc : Nat) : (img.tapeAt loc).length = locationOfRank loc + 1 := by
  simp [tapeAt]

theorem tapeAt_locationOfRank (img : Image) (r : Nat) : img.tapeAt (locationOfRank r) = img.tape r := by
  rw [tapeAt, toNat_rank, locationOfRank_locationOfRank]

/-- So many steps take as many bytes off the tape. -/
theorem tapeAt_stepsAfter (img : Image) {count : Nat} (fits : count ≤ locationOfRank loc) :
    img.tapeAt (stepsAfter loc count) = (img.tapeAt loc).drop count := by
  rw [stepsAfter, tapeAt_locationOfRank, tapeAt, toNat_rank, drop_tape img fits]

theorem stepsAfter_lt {count : Nat} (inside : loc < memorySize) : stepsAfter loc count < memorySize := by
  rw [stepsAfter, toNat_rank]
  exact locationOfRank_lt (Nat.lt_of_le_of_lt (Nat.sub_le _ _) (locationOfRank_lt inside))

theorem location_of_lt (inside : loc < memorySize) : location loc = .ok loc := by
  simp only [memorySize] at inside
  unfold location
  rw [if_pos (by omega)]
  rfl

/-- Decoding at a location reads the instruction at the head of the tape from there on. -/
theorem decode_eq (inside : loc < memorySize) :
    img.decode loc = (Instruction.read (img.tapeAt loc)).map fun found =>
      ⟨loc, stepsAfter loc found.1.size, found.1⟩ := by
  unfold decode
  rw [location_of_lt inside]
  change (Instruction.read (img.tapeAt loc) >>= _) = _
  cases Instruction.read (img.tapeAt loc) <;> rfl

theorem marker_eq (inside : loc < memorySize) :
    img.marker loc = (Marker.read (img.tapeAt loc)).map fun found =>
      found.map fun found => ⟨loc, stepsAfter loc found.1.bytes.length, found.1⟩ := by
  unfold marker
  rw [location_of_lt inside]
  change (Marker.read (img.tapeAt loc) >>= _) = _
  rcases Marker.read (img.tapeAt loc) with _ | _ | _ <;> rfl

theorem tapeAt_cons (img : Image) (loc : Nat) : ∃ t, img.tapeAt loc = img.byte loc :: t := by
  have here : ∀ r, ∃ t, img.tape r = img.byte (locationOfRank r) :: t := by
    intro r
    cases r with
    | zero => exact ⟨[], rfl⟩
    | succ r => exact ⟨img.tape r, rfl⟩
  obtain ⟨t, tape⟩ := here (locationOfRank loc)
  rw [locationOfRank_locationOfRank] at tape
  exact ⟨t, by rw [tapeAt, toNat_rank, tape]⟩

/-- The bytes that are read at a location are the first ones of the tape. -/
theorem read_eq_take (inside : loc < memorySize) {count : Nat} (fits : count ≤ locationOfRank loc + 1) :
    img.read loc count = .ok (List.take count (img.tapeAt loc)) := by
  have here := read_locationOfRank img (locationOfRank_lt inside) fits
  rwa [locationOfRank_locationOfRank, ← toNat_rank] at here

/-- An instruction leaves the tape from the location after it, which there always is. -/
theorem rest_of_read {r : Nat} {i : Instruction} {rest : Tape} (taken : Instruction.read (img.tape r) = .ok (i, rest)) :
    i.size ≤ r ∧ rest = img.tape (r - i.size) := by
  obtain ⟨parts, more⟩ := Instruction.eq_append_of_read taken
  have fits : i.size ≤ r := by
    have total := congrArg List.length parts
    have positive := List.length_pos_iff.2 more
    rw [length_tape, List.length_append] at total
    unfold Instruction.size
    omega
  refine ⟨fits, ?_⟩
  rw [← drop_tape img fits, parts]
  exact List.drop_left.symm

/-- An instruction that tells its own length is decoded where its bytes begin the tape. -/
theorem decode_of_tape {r : Nat} (inMemory : r < memorySize) {i : Instruction} {rest : Tape}
    (tape : img.tape r = i.bytes ++ rest) (span : Tape.span (i.bytes ++ rest) = some i.size) (more : rest ≠ []) :
    i.size ≤ r ∧ img.decode (locationOfRank r : Nat) = .ok ⟨locationOfRank r, locationOfRank (r - i.size), i⟩ := by
  have taken := Instruction.read_append span more
  constructor
  · rw [← tape] at taken
    exact (rest_of_read taken).1
  · rw [decode_eq (locationOfRank_lt inMemory), tapeAt_locationOfRank, tape, taken]
    simp [Except.map, stepsAfter]

/-- What decoding gives at a location where an instruction of `count` bytes stands. -/
structure Decodes (img : Image) (loc count : Nat) (p : Placed Instruction) : Prop where
  location : p.location = loc
  pos : 1 ≤ count
  size : p.item.size = count
  bytes : img.read loc count = .ok p.item.bytes
  following : Walk.advance loc count = .ok (p.following : Int)
  shape : Shape.ofNumber (img.byte loc).toNat = .ok p.item.shape
  isEnd : p.item.isEnd = true ↔ 0xC0 ≤ (img.byte loc).toNat ∧ (img.byte loc).toNat ≤ 0xCD ∧
    ∃ second third, img.read loc 3 = .ok [img.byte loc, second, third] ∧ third.toNat < 240
  marker : 0xC0 ≤ (img.byte loc).toNat → (img.byte loc).toNat ≤ 0xCD →
    img.marker loc = .ok (some ⟨loc, p.following, p.item.marker⟩)
  tableName : p.item.tableName ≠ some ""

theorem decodes_of_read {i : Instruction} {rest : Tape} (inside : loc < memorySize)
    (taken : Instruction.read (img.tapeAt loc) = .ok (i, rest)) :
    Decodes img loc i.size ⟨loc, stepsAfter loc i.size, i⟩ := by
  obtain ⟨parts, -⟩ := Instruction.eq_append_of_read taken
  obtain ⟨t, head⟩ := tapeAt_cons img loc
  have opcode : i.opcode = img.byte loc := by
    rw [parts, Instruction.bytes, List.cons_append, List.cons.injEq] at head
    exact head.1
  have long : i.size ≤ locationOfRank loc := by
    rw [← toNat_rank]
    exact (rest_of_read taken).1
  have global : i.shape = .global ↔ 0xC0 ≤ (img.byte loc).toNat ∧ (img.byte loc).toNat ≤ 0xCD := by
    rw [← opcode, ← Shape.ofOpcode_eq_global_iff]
    rfl
  -- A global instruction has three bytes at least, so the walk comes by the third one.
  have header (isGlobal : i.shape = .global) :
      img.read loc 3 = .ok [img.byte loc, i.marker.second, i.marker.third] := by
    obtain ⟨bytes, -⟩ := Instruction.bytes_marker taken isGlobal
    have three : 3 ≤ i.size := by
      rw [Instruction.size, ← bytes]
      simp [Marker.bytes]
    rw [read_eq_take inside (by omega), parts, ← bytes, ← opcode]
    rfl
  constructor
  case location => rfl
  case pos => exact Nat.le_add_left 1 _
  case size => rfl
  case bytes =>
    rw [read_eq_take inside (by omega), parts]
    congr 1
    exact List.take_left
  case following =>
    rw [advance_eq_ok_iff]
    refine ⟨long, ?_⟩
    rw [stepsAfter, toNat_rank]
  case shape =>
    rw [← opcode]
    exact Shape.ofNumber_toNat i.opcode
  case isEnd =>
    rw [Instruction.isEnd_iff]
    constructor
    · rintro ⟨isGlobal, low⟩
      exact ⟨(global.1 isGlobal).1, (global.1 isGlobal).2, _, _, header isGlobal, low⟩
    · rintro ⟨above, below, second, third, read, low⟩
      have isGlobal := global.2 ⟨above, below⟩
      rw [header isGlobal] at read
      cases read
      exact ⟨isGlobal, low⟩
  case marker =>
    intro above below
    have isGlobal := global.2 ⟨above, below⟩
    rw [marker_eq inside, Instruction.marker_read_of_read taken isGlobal]
    dsimp only [Except.map, Option.map]
    rw [(Instruction.bytes_marker taken isGlobal).1]
    rfl
  case tableName => exact Instruction.tableName_ne_empty i

/-- **What decoding consumes.** Where the walk can step over the bytes that the first ones of them tell, decoding gives
the instruction made of just these bytes; everywhere else it fails for want of a step. -/
theorem decode_span (img : Image) {loc : Nat} (inside : loc ≤ 7783) :
    (∀ size following, (img.tapeAt loc).span = some size → Walk.advance loc size = .ok following →
      ∃ p, img.decode loc = .ok p ∧ p.following = following ∧ Decodes img loc size p) ∧
    ((∀ size following, (img.tapeAt loc).span = some size → Walk.advance loc size ≠ .ok following) →
      ∃ f, img.decode loc = .error f ∧ f.kind = .walk) := by
  have inMemory : loc < memorySize := Nat.lt_succ_of_le inside
  constructor
  · intro size following span walked
    obtain ⟨fits, rfl⟩ := advance_eq_ok_iff.1 walked
    obtain ⟨i, taken, bytes⟩ := Instruction.read_of_span span (by rw [length_tapeAt]; omega)
    have same : i.size = size := by
      rw [Instruction.size, bytes, List.length_take, length_tapeAt]
      omega
    refine ⟨⟨loc, stepsAfter loc i.size, i⟩, ?_, ?_, ?_⟩
    · rw [decode_eq inMemory, taken]
      rfl
    · rw [stepsAfter, toNat_rank, same]
    · rw [← same]
      exact decodes_of_read inMemory taken
  · intro stuck
    have failed : Instruction.read (img.tapeAt loc) = .error Tape.ranOut := by
      apply Instruction.read_of_short
      intro size span
      rw [length_tapeAt]
      apply Nat.lt_of_not_le
      intro fits
      exact stuck size _ span (advance_eq_ok_iff.2 ⟨fits, rfl⟩)
    refine ⟨Tape.ranOut, ?_, rfl⟩
    rw [decode_eq inMemory, failed]
    rfl

/-- In an image full of texts of one byte the last text takes the two bytes before the last one. Two bytes are left at
the location after it too, but then the walk has nowhere to go on. -/
theorem decode_span_filled :
    (∃ p, (filled 0xF1).decode (4 : Nat) = .ok p ∧ (p.following : Int) = 6 ∧ Decodes (filled 0xF1) 4 2 p) ∧
      ∃ f, (filled 0xF1).decode (5 : Nat) = .error f ∧ f.kind = .walk := by
  have byte (loc : Nat) (inside : loc < memorySize) : (filled 0xF1).byte loc = 0xF1 := by
    simp only [memorySize] at inside
    simp [Image.byte, filled, inside]
  have span (loc : Nat) (inside : loc < memorySize) : ((filled 0xF1).tapeAt loc).span = some 2 := by
    obtain ⟨t, tape⟩ := tapeAt_cons (filled 0xF1) loc
    rw [tape, byte loc inside]
    rfl
  constructor
  · have walked : Walk.advance (4 : Nat) 2 = .ok 6 := rfl
    exact (@decode_span (filled 0xF1) 4 (by decide)).1 2 6 (span 4 (by decide)) walked
  · refine (@decode_span (filled 0xF1) 5 (by decide)).2 ?_
    intro size following spanned walked
    rw [span 5 (by decide)] at spanned
    cases spanned
    cases walked

end Image

end CalcImage
