import CalcImage.Proofs.Transcription.Grammar

/-!
# What lines come to

A line says what the grammar reads it as (`Tells`), and a line of memory has to lie inside memory and to hold registers
of fourteen digits (`Line.Fits`). A line that does not say anything that fits is refused for one cause (`Refused`),
whatever the lines before it have said. So the first such line tells why lines are no image, and without one it is the
model (`Objection`). The image that lines describe has in each register what the last line on that register says
(`Describes`).
-/

namespace CalcImage.Transcription

open CalcImage.Text

namespace Line

/-- The bytes that a line has for a register. -/
def register? (r : Nat) : Line → Option (List UInt8)
  | memory first registers =>
    if first ≤ r then registers[r - first]?.bind fun text => Hex.toBytes? text.toList else none
  | _ => none

/-- The model that a line names. -/
def name? : Line → Option String
  | model name => some name
  | _ => none

/-- A line of memory has its four registers inside memory, each with fourteen digits. -/
def Fits : Line → Prop
  | memory first registers => first + 4 ≤ 1112 ∧ ∀ text ∈ registers, text.toList.length = 14
  | _ => True

end Line

/-- What a line says as it stands in a file, with its line end or without. -/
def Tells (raw : List Char) (line : Line) : Prop := ∃ cs, Stripped raw cs ∧ Line.Reads cs line

/-- The line says something, and it fits. -/
def Accepted (raw : List Char) : Prop := ∃ line, Tells raw line ∧ line.Fits

/-- Why a line with this number is refused, and of which kind that is. -/
inductive Refused (number : Nat) (raw : List Char) : Fault → Fault.Kind → Prop where
  | stray {cs : List Char} (stripped : Stripped raw cs) (unread : ∀ line, ¬Line.Reads cs line) :
      Refused number raw (.strayLine number (String.ofList cs)) .transcription
  | beyond {first : Nat} {registers : List String} (tells : Tells raw (.memory first registers))
      (outside : 1112 < first + 4) : Refused number raw (.lineBeyond number (first + 3)) .transcription
  | register {first : Nat} {before after : List String} {text : String}
      (tells : Tells raw (.memory first (before ++ text :: after))) (inside : first + 4 ≤ 1112)
      (fits : ∀ t ∈ before, t.toList.length = 14) (other : text.toList.length ≠ 14) :
      Refused number raw (.registerText (first + before.length) text) .register

/-- Why lines are no image, and of which kind that is. -/
inductive Objection (raws : List (List Char)) : Fault → Fault.Kind → Prop where
  | line {before after : List (List Char)} {raw : List Char} {f : Fault} {k : Fault.Kind}
      (split : raws = before ++ raw :: after) (accepted : ∀ raw ∈ before, Accepted raw)
      (refused : Refused (before.length + 1) raw f k) : Objection raws f k
  | noModel (accepted : ∀ raw ∈ raws, Accepted raw) (unnamed : lastSaid Line.name? raws = none) :
      Objection raws .noModel .transcription
  | otherModel {name : String} (accepted : ∀ raw ∈ raws, Accepted raw) (named : lastSaid Line.name? raws = some name)
      (other : name ≠ "DM41") : Objection raws (.otherModel name) .model

/-- In each register and in the CPU registers the image has what the last line on them says, and otherwise zeros. -/
structure Describes (raws : List (List Char)) (img : Image) : Prop where
  registers : ∀ r < 1112, img.registerAt r = (lastSaid (Line.register? r) raws).getD (List.replicate 7 0)
  abc : (img.cpu.a, img.cpu.b, img.cpu.c) =
    (lastSaid Line.abc? raws).getD (Cpu.zeroText, Cpu.zeroText, Cpu.zeroText)
  mng : (img.cpu.m, img.cpu.n, img.cpu.g) =
    (lastSaid Line.mng? raws).getD (Cpu.zeroText, Cpu.zeroText, Cpu.zeroFlags)

theorem tells_iff {raw : List Char} {line : Line} : Tells raw line ↔ Line.ofText? (dropLineEnd raw) = some line := by
  rw [Line.ofText?_eq_some_iff]
  constructor
  · rintro ⟨cs, stripped, reads⟩
    rw [dropLineEnd_eq_iff.2 stripped]
    exact reads
  · intro reads
    exact ⟨_, stripped_dropLineEnd raw, reads⟩

/-- A line of memory holds four words of hexadecimal digits. -/
theorem Tells.memory {raw : List Char} {first : Nat} {registers : List String}
    (tells : Tells raw (.memory first registers)) :
    registers.length = 4 ∧ ∀ text ∈ registers, text.toList.all Hex.isDigit = true := by
  obtain ⟨cs, -, reads⟩ := tells
  cases reads with
  | memory _ _ _ four digits _ =>
    refine ⟨by rw [List.length_map, four], ?_⟩
    intro text member
    obtain ⟨w, inside, rfl⟩ := List.mem_map.1 member
    rw [String.toList_ofList]
    exact digits w (List.mem_cons_of_mem _ inside)

namespace Draft

section Registers

variable {img img' : Image} {index r : Nat} {texts : List String} {text : String}

/-- Fourteen digits are the bytes of a register. -/
theorem exists_registerBytes? (digits : text.toList.all Hex.isDigit = true) (fourteen : text.toList.length = 14) :
    ∃ bs, Image.registerBytes? text = some bs := by
  have spelled := Hex.isSome_toBytes? text.toList
  rw [digits, fourteen] at spelled
  obtain ⟨bs, bytes⟩ := Option.isSome_iff_exists.1 (spelled.trans rfl)
  exact ⟨bs, Image.registerBytes?_eq_some_iff.2 ⟨fourteen, bytes⟩⟩

/-- Registers of fourteen digits each are stored. -/
theorem exists_storeAll (digits : ∀ t ∈ texts, t.toList.all Hex.isDigit = true)
    (fits : ∀ t ∈ texts, t.toList.length = 14) : ∃ img', storeAll img index texts = .ok img' := by
  induction texts generalizing img index with
  | nil => exact ⟨img, rfl⟩
  | cons text texts ih =>
    obtain ⟨bs, bytes⟩ := exists_registerBytes? (digits text List.mem_cons_self) (fits text List.mem_cons_self)
    rw [storeAll, bytes]
    exact ih (fun t member => digits t (List.mem_cons_of_mem text member))
      fun t member => fits t (List.mem_cons_of_mem text member)

/-- The first register with another number of digits is refused. -/
theorem storeAll_of_other {before after : List String} (digits : ∀ t ∈ before, t.toList.all Hex.isDigit = true)
    (fits : ∀ t ∈ before, t.toList.length = 14) (other : text.toList.length ≠ 14) :
    storeAll img index (before ++ text :: after) = .error (.registerText (index + before.length) text) := by
  induction before generalizing img index with
  | nil =>
    have unread : Image.registerBytes? text = none := if_neg other
    rw [List.nil_append, storeAll, unread]
    rfl
  | cons t before ih =>
    obtain ⟨bs, bytes⟩ := exists_registerBytes? (digits t List.mem_cons_self) (fits t List.mem_cons_self)
    rw [List.cons_append, storeAll, bytes]
    dsimp only
    rw [ih (fun t' member => digits t' (List.mem_cons_of_mem t member))
      fun t' member => fits t' (List.mem_cons_of_mem t member), List.length_cons, Nat.add_right_comm, Nat.add_assoc]

/-- The registers that are stored hold what the line says of them, and the others stay. -/
theorem registerAt_storeAll (inside : r < registerCount) (stored : storeAll img index texts = .ok img') :
    img'.registerAt r = ((Line.memory index texts).register? r).getD (img.registerAt r) := by
  induction texts generalizing img index with
  | nil =>
    cases stored
    rw [Line.register?, List.getElem?_nil, Option.bind_none, ite_self]
    rfl
  | cons text texts ih =>
    rw [storeAll] at stored
    cases bytes : Image.registerBytes? text with
    | none =>
      rw [bytes] at stored
      cases stored
    | some bs =>
      rw [bytes] at stored
      obtain ⟨fourteen, spelled⟩ := Image.registerBytes?_eq_some_iff.1 bytes
      have size : bs.length = 7 := by
        have := Hex.length_of_toBytes? spelled
        omega
      rw [ih stored, Image.registerAt_putAll img size inside, Line.register?, Line.register?]
      rcases Nat.lt_trichotomy r index with below | rfl | above
      · rw [if_neg (by omega), if_neg (by omega), if_neg (by omega)]
      · rw [if_neg (by omega), if_pos rfl, if_pos (Nat.le_refl _), Nat.sub_self, List.getElem?_cons_zero,
          Option.bind_some, spelled]
        rfl
      · rw [if_pos (show index + 1 ≤ r from above), if_neg (by omega), if_pos (by omega),
          show r - index = r - (index + 1) + 1 by omega, List.getElem?_cons_succ]

end Registers

section Lines

variable {d d' : Draft} {number : Nat} {raw : List Char} {raws : List (List Char)}

/-- A line puts into a register what it says of it. -/
theorem register_of_apply {r : Nat} (inside : r < registerCount) {line : Line} (applied : d.apply number line = .ok d') :
    some (d'.image.registerAt r) = (line.register? r).or (some (d.image.registerAt r)) := by
  cases line with
  | memory first registers =>
    obtain ⟨image, stored, rfl⟩ := stored_of_apply applied
    dsimp only
    rw [registerAt_storeAll inside stored]
    cases (Line.memory first registers).register? r <;> rfl
  | abc a b c =>
    cases applied
    rfl
  | mng m n g =>
    cases applied
    rfl
  | model name =>
    cases applied
    rfl
  | blank =>
    cases applied
    rfl

/-- A line that names a model puts another one in its place. -/
theorem model_of_apply {line : Line} (applied : d.apply number line = .ok d') : d'.model = line.name?.or d.model := by
  cases line with
  | memory first registers =>
    obtain ⟨image, -, rfl⟩ := stored_of_apply applied
    rfl
  | abc a b c =>
    cases applied
    rfl
  | mng m n g =>
    cases applied
    rfl
  | model name =>
    cases applied
    rfl
  | blank =>
    cases applied
    rfl

/-- A line of memory is taken when its registers are stored, and they have to lie inside memory. -/
theorem apply_memory {first : Nat} {registers : List String} (four : registers.length = 4) :
    d.apply number (.memory first registers) =
      if 1112 < first + 4 then .error (.lineBeyond number (first + 3))
      else (storeAll d.image first registers).map fun image => { d with image } := by
  unfold apply
  dsimp only
  rw [four]
  rfl

/-- What says something that fits is taken, whatever has been said before. -/
theorem exists_take (accepted : Accepted raw) (d : Draft) (number : Nat) : ∃ d', d.take number raw = .ok d' := by
  obtain ⟨line, tells, fits⟩ := accepted
  rw [take, tells_iff.1 tells]
  cases line with
  | memory first registers =>
    obtain ⟨four, digits⟩ := tells.memory
    obtain ⟨image, stored⟩ := @exists_storeAll d.image first registers digits fits.2
    refine ⟨{ d with image }, ?_⟩
    dsimp only
    rw [apply_memory four, if_neg (Nat.not_lt.2 fits.1), stored]
    rfl
  | abc a b c => exact ⟨_, rfl⟩
  | mng m n g => exact ⟨_, rfl⟩
  | model name => exact ⟨_, rfl⟩
  | blank => exact ⟨_, rfl⟩

/-- A line is refused for its cause, whatever has been said before. -/
theorem take_of_refused {f : Fault} {k : Fault.Kind} (refused : Refused number raw f k) (d : Draft) :
    d.take number raw = .error f := by
  cases refused with
  | stray stripped unread =>
    have unknown : Line.ofText? _ = none := Option.eq_none_iff_forall_ne_some.2 fun line known =>
      unread line (Line.ofText?_eq_some_iff.1 known)
    rw [take, dropLineEnd_eq_iff.2 stripped, unknown]
  | beyond tells outside =>
    obtain ⟨four, -⟩ := tells.memory
    rw [take, tells_iff.1 tells]
    dsimp only
    rw [apply_memory four, if_pos outside]
  | register tells inside fits other =>
    obtain ⟨four, digits⟩ := tells.memory
    rw [take, tells_iff.1 tells]
    dsimp only
    rw [apply_memory four, if_neg (Nat.not_lt.2 inside),
      storeAll_of_other (fun t member => digits t (List.mem_append_left _ member)) fits other]
    rfl

/-- Lines that are all accepted are taken. -/
theorem exists_takeAll (accepted : ∀ raw ∈ raws, Accepted raw) (d : Draft) (number : Nat) :
    ∃ d', d.takeAll number raws = .ok d' := by
  induction raws generalizing d number with
  | nil => exact ⟨d, rfl⟩
  | cons raw raws ih =>
    obtain ⟨d', taken⟩ := exists_take (accepted raw List.mem_cons_self) d number
    rw [takeAll, taken]
    exact ih (fun raw' member => accepted raw' (List.mem_cons_of_mem raw member)) d' (number + 1)

/-- The first line that is refused tells why lines are not taken. -/
theorem takeAll_of_refused {before after : List (List Char)} {f : Fault} {k : Fault.Kind}
    (accepted : ∀ raw ∈ before, Accepted raw) (refused : Refused (number + before.length) raw f k) (d : Draft) :
    d.takeAll number (before ++ raw :: after) = .error f := by
  induction before generalizing d number with
  | nil =>
    have here : d.take number raw = .error f := take_of_refused refused d
    rw [List.nil_append, takeAll, here]
  | cons raw' before ih =>
    obtain ⟨d', taken⟩ := exists_take (accepted raw' List.mem_cons_self) d number
    rw [List.cons_append, takeAll, taken]
    refine ih (fun raw'' member => accepted raw'' (List.mem_cons_of_mem raw' member)) ?_ d'
    rwa [List.length_cons, ← Nat.add_assoc, Nat.add_right_comm] at refused

theorem model_of_takeAll (taken : d.takeAll number raws = .ok d') :
    d'.model = (lastSaid Line.name? raws).or d.model :=
  said_of_takeAll model_of_apply taken

/-- After all lines a register holds what the last line on it says, or else what it held before. -/
theorem register_of_takeAll {r : Nat} (inside : r < registerCount) (taken : d.takeAll number raws = .ok d') :
    d'.image.registerAt r = (lastSaid (Line.register? r) raws).getD (d.image.registerAt r) := by
  have said := @said_of_takeAll raws d d' number _ (Line.register? r) (fun d => some (d.image.registerAt r))
    (register_of_apply inside) taken
  cases last : lastSaid (Line.register? r) raws with
  | none =>
    rw [last] at said
    exact Option.some.inj said
  | some bs =>
    rw [last] at said
    exact Option.some.inj said

end Lines

end Draft

section Lines

variable {raw : List Char} {raws : List (List Char)} {f : Fault} {k : Fault.Kind}

/-- A line is accepted, or there is a cause for which it is refused. -/
theorem accepted_or_refused (number : Nat) (raw : List Char) : Accepted raw ∨ ∃ f, Refused number raw f f.kind := by
  cases known : Line.ofText? (dropLineEnd raw) with
  | none =>
    refine .inr ⟨_, .stray (stripped_dropLineEnd raw) ?_⟩
    intro line reads
    rw [Line.ofText?_eq_some_iff.2 reads] at known
    cases known
  | some line =>
    have tells := tells_iff.2 known
    cases line with
    | memory first registers =>
      rcases Nat.lt_or_ge 1112 (first + 4) with outside | inside
      · exact .inr ⟨_, .beyond tells outside⟩
      · cases other : registers.find? fun text => text.toList.length != 14 with
        | none =>
          refine .inl ⟨_, tells, inside, ?_⟩
          intro text member
          simpa using List.find?_eq_none.1 other text member
        | some text =>
          obtain ⟨length, before, after, rfl, fits⟩ := List.find?_eq_some_iff_append.1 other
          refine .inr ⟨_, .register tells inside ?_ (by simpa using length)⟩
          intro t member
          simpa using fits t member
    | abc a b c => exact .inl ⟨_, tells, trivial⟩
    | mng m n g => exact .inl ⟨_, tells, trivial⟩
    | model name => exact .inl ⟨_, tells, trivial⟩
    | blank => exact .inl ⟨_, tells, trivial⟩

/-- All lines are accepted, or there is a first one that is refused. -/
theorem accepted_or_first_refused (number : Nat) (raws : List (List Char)) :
    (∀ raw ∈ raws, Accepted raw) ∨ ∃ before raw after f, raws = before ++ raw :: after ∧
      (∀ raw ∈ before, Accepted raw) ∧ Refused (number + before.length) raw f f.kind := by
  induction raws generalizing number with
  | nil => exact .inl fun raw member => absurd member List.not_mem_nil
  | cons raw raws ih =>
    rcases accepted_or_refused number raw with here | ⟨f, refused⟩
    · rcases ih (number + 1) with all | ⟨before, raw', after, f, rfl, accepted, refused⟩
      · exact .inl (List.forall_mem_cons.2 ⟨here, all⟩)
      · refine .inr ⟨raw :: before, raw', after, f, rfl, List.forall_mem_cons.2 ⟨here, accepted⟩, ?_⟩
        rwa [List.length_cons, ← Nat.add_assoc, Nat.add_right_comm]
    · exact .inr ⟨[], raw, raws, f, rfl, fun raw member => absurd member List.not_mem_nil, refused⟩

/-- Lines that are accepted and name the right model at last are an image. -/
theorem exists_parse (accepted : ∀ raw ∈ raws, Accepted raw) (named : lastSaid Line.name? raws = some "DM41") :
    ∃ img, (parse raws).outcome.1 = .ok img := by
  obtain ⟨d, taken⟩ := Draft.exists_takeAll accepted .empty 1
  have model : d.model = some modelName := by
    rw [Draft.model_of_takeAll taken, named]
    rfl
  refine ⟨{ d.image with cpu := d.cpu }, ?_⟩
  rw [outcome_parse, taken]
  change d.image? = _
  rw [Draft.image?, model]
  exact if_pos rfl

/-- An objection is the fault that lines come to. -/
theorem parse_of_objection (objection : Objection raws f k) : (parse raws).outcome.1 = .error f := by
  rw [outcome_parse]
  cases objection with
  | line split accepted refused =>
    rw [Nat.add_comm] at refused
    rw [split, Draft.takeAll_of_refused accepted refused]
    rfl
  | noModel accepted unnamed =>
    obtain ⟨d, taken⟩ := Draft.exists_takeAll accepted .empty 1
    have model : d.model = none := by
      rw [Draft.model_of_takeAll taken, unnamed]
      rfl
    rw [taken]
    change d.image? = _
    rw [Draft.image?, model]
  | otherModel accepted named other =>
    obtain ⟨d, taken⟩ := Draft.exists_takeAll accepted .empty 1
    have model := Draft.model_of_takeAll taken
    rw [named] at model
    rw [taken]
    change d.image? = _
    rw [Draft.image?, model]
    exact if_neg other

/-- Lines are an image, or there is an objection. -/
theorem accepted_or_objection (raws : List (List Char)) :
    ((∀ raw ∈ raws, Accepted raw) ∧ lastSaid Line.name? raws = some "DM41") ∨ ∃ f, Objection raws f f.kind := by
  rcases accepted_or_first_refused 1 raws with accepted | ⟨before, raw, after, f, split, accepted, refused⟩
  · cases named : lastSaid Line.name? raws with
    | none => exact .inr ⟨_, .noModel accepted named⟩
    | some name =>
      by_cases right : name = "DM41"
      · subst right
        exact .inl ⟨accepted, rfl⟩
      · exact .inr ⟨_, .otherModel accepted named right⟩
  · rw [Nat.add_comm] at refused
    exact .inr ⟨f, .line split accepted refused⟩

/-- The image that lines are read as is the one that they describe. -/
theorem describes_of_parse {img : Image} (read : (parse raws).outcome.1 = .ok img) : Describes raws img := by
  obtain ⟨d, taken, drafted⟩ := draft_of_parse read
  obtain ⟨abc, mng⟩ := Draft.cpu_of_takeAll taken
  have cpu := cpu_of_image? drafted
  constructor
  case registers =>
    intro r inside
    have blank : Image.zero.registerAt r = List.replicate 7 0 := by
      simp only [Image.registerAt, Image.byte_zero, List.map_const', List.length_range]
    have same : img.registerAt r = d.image.registerAt r := by
      unfold Draft.image? at drafted
      split at drafted
      · cases drafted
      · split at drafted
        · cases drafted
          rfl
        · cases drafted
    rw [same, Draft.register_of_takeAll inside taken, ← blank]
    rfl
  case abc => rw [cpu, Draft.cpu, abc, Draft.empty, Option.or_none]
  case mng => rw [cpu, Draft.cpu, mng, Draft.empty, Option.or_none]

/-- **What lines come to.** A line is read exactly as the grammar says. Lines are an image exactly when each of them
says something that fits and the last model that is named is the right one. This image has in each register what the last
line on it says. Otherwise there is a fault, which is that of the first line that is refused, or else that of the model,
and of the kind that belongs to it. -/
theorem parse_iff_grammar (raws : List (List Char)) :
    (∀ raw line, Line.ofText? (dropLineEnd raw) = some line ↔ Tells raw line) ∧
      ((∃ img, (parse raws).outcome.1 = .ok img) ↔
        (∀ raw ∈ raws, Accepted raw) ∧ lastSaid Line.name? raws = some "DM41") ∧
      (∀ img, (parse raws).outcome.1 = .ok img → Describes raws img) ∧
      ∀ f, (parse raws).outcome.1 = .error f ↔ Objection raws f f.kind := by
  refine ⟨fun raw line => tells_iff.symm, ?_, fun img read => describes_of_parse read, ?_⟩
  · constructor
    · rintro ⟨img, read⟩
      rcases accepted_or_objection raws with accepted | ⟨f, objection⟩
      · exact accepted
      · rw [parse_of_objection objection] at read
        cases read
    · rintro ⟨accepted, named⟩
      exact exists_parse accepted named
  · intro f
    constructor
    · intro failed
      rcases accepted_or_objection raws with ⟨accepted, named⟩ | ⟨f', objection⟩
      · obtain ⟨img, read⟩ := exists_parse accepted named
        rw [failed] at read
        cases read
      · rw [parse_of_objection objection] at failed
        cases failed
        exact objection
    · exact parse_of_objection

end Lines

end CalcImage.Transcription
