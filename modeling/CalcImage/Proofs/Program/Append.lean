import CalcImage.Proofs.Injection.Outcome
import CalcImage.Proofs.Program.Scan

/-!
# The catalog after an injection

An injection changes the tape of program memory from the register of the old limit on, and it overwrites all seven
bytes of that register, those before the end marker included. A scan before and a scan after it therefore have a first
part in common (`ScanParts`). They report the same there when no marker reaches into the register, and then the
entries before are the first entries after (`ScanParts.entries_prefix`); otherwise there are bytes that lose an entry
(`ScanParts.clear_of_prefix`).
-/

namespace CalcImage

open Injection (padded registersFor endRegister)

/-- Different bytes have different names on the display. -/
theorem Glyph.text_injective {as bs : List UInt8} (same : text as = text bs) : as = bs :=
  (List.map_inj_right fun _ _ => ofByte_injective).1 (String.ofList_injective same)

/-- Labels with the same name and key have the same body. -/
theorem Marker.body_eq_of_name {m m' : Marker} (name : m.name = m'.name) (key : m.key = m'.key) :
    m.body = m'.body := by
  have tails := Glyph.text_injective name
  unfold nameBytes at tails
  unfold Marker.key at key
  cases body : m.body with
  | nil => cases body' : m'.body <;> simp_all
  | cons b bs => cases body' : m'.body <;> simp_all

namespace Catalog

section Beside

variable {s : Scan} {head rest rest' : Tape}

theorem exists_header (header : 3 ≤ head.length) :
    ∃ opcode second third body, head = opcode :: second :: third :: body := by
  match head, header with
  | opcode :: second :: third :: body, _ => exact ⟨opcode, second, third, body, rfl⟩

/-- A marker that ends before the rest of the tape is looked at in the same way whatever that rest is. -/
theorem look_congr_of_clear (header : 3 ≤ head.length) (long : 15 < rest.length) (long' : 15 < rest'.length)
    (clear : ∀ m after, sighting (head ++ rest) = some (m, after) → rest.length ≤ after.length) :
    look s (head ++ rest') = look s (head ++ rest) := by
  obtain ⟨opcode, second, third, body, rfl⟩ := exists_header header
  simp only [List.cons_append] at clear ⊢
  have short := Marker.bodyLength_le third
  apply look_congr
  rw [sighting_header (by simp only [List.length_append]; omega)] at clear ⊢
  rw [sighting_header (by simp only [List.length_append]; omega)]
  split
  · rw [if_pos ‹_›] at clear
    have inside := clear _ _ rfl
    rw [List.length_drop, List.length_append] at inside
    rw [Option.map_some, Option.map_some, List.take_append_of_le_length (by omega),
      List.take_append_of_le_length (by omega)]
  · rfl

/-- A marker that goes on into the rest of the tape is a label, and leaves another entry when that rest begins with
another byte. -/
theorem entries_look_of_reaches (header : 3 ≤ head.length) (long : 15 < rest.length) (long' : 15 < rest'.length)
    (other : rest.head? ≠ rest'.head?) {m : Marker} {after : Tape} (seen : sighting (head ++ rest) = some (m, after))
    (reaches : after.length < rest.length) :
    ∃ e e', e ≠ e' ∧ (look s (head ++ rest)).entries = s.entries ++ [e] ∧
      (look s (head ++ rest')).entries = s.entries ++ [e'] := by
  obtain ⟨opcode, second, third, body, rfl⟩ := exists_header header
  simp only [List.cons_append] at seen ⊢
  have short := Marker.bodyLength_le third
  obtain ⟨e, entries, entry⟩ := entries_look_of_some (s := s) seen
  have seen' : sighting (opcode :: second :: third :: (body ++ rest')) = _ :=
    sighting_header (by simp only [List.length_append]; omega)
  rw [sighting_header (by simp only [List.length_append]; omega)] at seen
  split at seen
  case isFalse => cases seen
  case isTrue shown =>
    rw [if_pos shown] at seen'
    obtain ⟨e', entries', entry'⟩ := entries_look_of_some (s := s) seen'
    cases seen
    rw [List.length_drop, List.length_append] at reaches
    refine ⟨e, e', ?_, entries, entries'⟩
    intro same
    have label {body : List UInt8} : (⟨opcode, second, third, body⟩ : Marker).kind = .label :=
      Marker.kind_of_bodyLength_pos (by dsimp only; omega)
    rw [(entry _ _).2 ⟨label, rfl, rfl⟩, (entry' _ _).2 ⟨label, rfl, rfl⟩, Entry.label.injEq] at same
    have bodies := congrArg (·[body.length]?) (Marker.body_eq_of_name same.1 same.2)
    dsimp only at bodies
    rw [List.getElem?_take_of_lt (by omega), List.getElem?_take_of_lt (by omega),
      List.getElem?_append_right (Nat.le_refl _), List.getElem?_append_right (Nat.le_refl _), Nat.sub_self,
      ← List.head?_eq_getElem?, ← List.head?_eq_getElem?] at bodies
    exact other bodies

end Beside

section Filler

variable {filler : UInt8}

/-- Seven filler bytes and the end marker after them show nothing, and make a permanent end of every header that they
complete. -/
theorem sighting_filler (choice : filler = 0x20 ∨ filler = 0x21) (t : Tape) {passed : Nat} (inside : passed < 14) :
    sighting ((List.replicate 7 filler ++ endRegister ++ t).drop passed) = none := by
  by_cases marker : passed = 11
  · subst marker
    exact sighting_of_terminal (by decide)
  · have other : ∀ k, k < 14 → k ≠ 11 →
        Shape.ofOpcode ((List.replicate 7 filler ++ endRegister).getD k 0) ≠ .global := by
      rcases choice with rfl | rfl <;> decide
    have here : passed < (List.replicate 7 filler ++ endRegister).length := inside
    have shape := other passed inside marker
    rw [← List.getElem_eq_getD (h := here)] at shape
    rw [List.drop_eq_getElem_cons (by rw [List.length_append]; omega), List.getElem_append_left here]
    exact sighting_of_ne_global shape

theorem sighting_last_filler (choice : filler = 0x20 ∨ filler = 0x21) {last t : Tape} (short : last.length ≤ 2)
    {passed : Nat} (inside : passed < last.length + 14) :
    sighting ((last ++ (List.replicate 7 filler ++ endRegister ++ t)).drop passed) = none := by
  have bits : ¬0xF0 ≤ filler ∧ filler &&& 0x20 ≠ 0 := by
    rcases choice with rfl | rfl <;> decide
  have completes (opcode second : UInt8) (t : Tape) : sighting (opcode :: second :: filler :: t) = none := by
    apply sighting_of_terminal
    unfold Marker.kind
    dsimp only
    rw [if_neg bits.1, if_pos bits.2]
  rcases Nat.lt_or_ge passed last.length with early | late
  · match last, passed, short, early with
    | [b], 0, _, _ => exact completes b filler _
    | [b, c], 0, _, _ => exact completes b c _
    | [b, c], 1, _, _ => exact completes c filler _
  · rw [List.drop_append, List.drop_of_length_le late, List.nil_append]
    exact sighting_filler choice t (by omega)

end Filler

section Split

/-- A scan that comes from above sees tapes that begin with a whole header above, and then those that begin at most two
bytes above the rest. -/
theorem visited_split (above : Tape) : ∃ (heads : List Tape) (last : Tape) (beyond : Nat), last.length ≤ 2 ∧
    (∀ head ∈ heads, 3 ≤ head.length) ∧ ∀ (rest : Tape) (room : Nat), visited (above.length + room) 0 (above ++ rest) =
      continued heads rest ++ visited (last.length + room) beyond (last ++ rest) := by
  obtain ⟨first, last, rfl, short, full⟩ : ∃ first last : Tape, above = first ++ last ∧ last.length ≤ 2 ∧
      (first ≠ [] → last.length = 2) := by
    refine ⟨List.take (above.length - 2) above, List.drop (above.length - 2) above, ?_, ?_, ?_⟩
    · exact (List.take_append_drop _ above).symm
    · simp only [List.length_drop]
      omega
    · rw [← List.length_pos_iff, List.length_take, List.length_drop]
      omega
  obtain ⟨beyond, parts⟩ := visited_append 0 first
  refine ⟨continued (visited first.length 0 first) last, last, beyond, short, ?_, fun rest room => ?_⟩
  · intro head member
    obtain ⟨part, seen, rfl⟩ := List.mem_map.1 member
    obtain ⟨passed, inside, rfl, more⟩ := mem_visited seen
    have two := full (List.length_pos_iff.1 (by omega))
    have one := List.length_pos_iff.2 more
    simp only [List.length_append]
    omega
  · rw [List.length_append, Nat.add_assoc, List.append_assoc, parts, continued_append]

/-- The markers that begin in one of the heads end there too. -/
def Clear (heads : List Tape) (rest : Tape) : Prop :=
  ∀ head ∈ heads, ∀ m after, sighting (head ++ rest) = some (m, after) → rest.length ≤ after.length

variable {heads : List Tape} {rest rest' : Tape}

theorem foldl_congr_of_clear (headers : ∀ head ∈ heads, 3 ≤ head.length) (long : 15 < rest.length)
    (long' : 15 < rest'.length) (clear : Clear heads rest) (s : Scan) :
    (continued heads rest').foldl look s = (continued heads rest).foldl look s := by
  induction heads generalizing s with
  | nil => rfl
  | cons head heads ih =>
    rw [continued, continued, List.map_cons, List.map_cons, List.foldl_cons, List.foldl_cons,
      look_congr_of_clear (headers head List.mem_cons_self) long long' (clear head List.mem_cons_self)]
    exact ih (fun h member => headers h (List.mem_cons_of_mem _ member))
      (fun h member => clear h (List.mem_cons_of_mem _ member)) _

/-- When a marker of the heads goes on into the rest, two scans find different entries if their rests begin with
different bytes. -/
theorem not_entries_prefix (headers : ∀ head ∈ heads, 3 ≤ head.length) (long : 15 < rest.length)
    (long' : 15 < rest'.length) (other : rest.head? ≠ rest'.head?) (reaches : ¬Clear heads rest) (s : Scan)
    (more more' : List Tape) :
    ¬((continued heads rest ++ more).foldl look s).entries <+:
      ((continued heads rest' ++ more').foldl look s).entries := by
  induction heads generalizing s with
  | nil => exact absurd (fun _ member => absurd member List.not_mem_nil) reaches
  | cons head heads ih =>
    have header := headers head List.mem_cons_self
    rw [continued, continued, List.map_cons, List.map_cons, List.cons_append, List.cons_append, List.foldl_cons,
      List.foldl_cons]
    by_cases here : ∃ m after, sighting (head ++ rest) = some (m, after) ∧ after.length < rest.length
    · obtain ⟨m, after, seen, short⟩ := here
      obtain ⟨e, e', differ, entries, entries'⟩ := entries_look_of_reaches (s := s) header long long' other seen short
      intro kept
      have first := entries_prefix_foldl (look s (head ++ rest)) (continued heads rest ++ more)
      have first' := entries_prefix_foldl (look s (head ++ rest')) (continued heads rest' ++ more')
      rw [entries] at first
      rw [entries'] at first'
      have both := (List.prefix_of_prefix_length_le (first.trans kept) first' (by simp)).eq_of_length (by simp)
      exact differ (by simpa using both)
    · have clear : ∀ m after, sighting (head ++ rest) = some (m, after) → rest.length ≤ after.length :=
        fun m after seen => Nat.le_of_not_lt fun short => here ⟨m, after, seen, short⟩
      have later : ¬Clear heads rest := by
        intro later
        refine reaches fun h member => ?_
        rcases List.mem_cons.1 member with rfl | member
        · exact clear
        · exact later h member
      rw [look_congr_of_clear header long long' clear]
      exact ih (fun h member => headers h (List.mem_cons_of_mem _ member)) later _

end Split

end Catalog

section Seven

variable (b : UInt8)

/-- Seven bytes fill one register. -/
theorem Injection.registersFor_seven : registersFor (List.replicate 7 b).length = 1 := by
  rw [List.length_replicate]
  rfl

theorem Injection.padded_seven : padded (List.replicate 7 b) = List.replicate 7 b := by
  rw [padded, List.length_replicate]
  exact List.append_nil _

end Seven

namespace Image

open Catalog Walk

/-- The markers that the catalog reports, each with the tape after it. -/
def reported (img : Image) : List (Marker × Tape) :=
  match img.programTape with
  | .ok (t, room) => (visited room 0 t).filterMap sighting
  | .error _ => []

/-- No marker that is reported has a byte in the register of the program limit. -/
def ClearAtLimit (img : Image) : Prop :=
  ∀ m after, (m, after) ∈ img.reported → 7 * (img.status.programLimit + 1) ≤ after.length

section Tape

variable {img : Image} {top : Nat}

theorem reported_of_le (top_eq : img.status.programTop = top) (low : img.status.programLimit ≤ top)
    (high : top < registerCount) :
    img.reported = (visited (7 * (top - img.status.programLimit) + 7) 0 (img.tape (7 * top + 6))).filterMap sighting := by
  rw [reported, programTape_of_le top_eq low high]

theorem Admits.take_tape_appended {bs : List UInt8} (h : img.Admits bs) :
    ((img.appended bs).tape (7 * top + 6)).take (7 * (top - img.status.programLimit)) =
      (img.tape (7 * top + 6)).take (7 * (top - img.status.programLimit)) := by
  have fits := h.fits
  apply take_tape_congr
  intro s high low
  exact h.byte_appended (by unfold locationOfRank; omega) (by unfold locationOfRank; omega)
    (by unfold locationOfRank; omega)

end Tape

/-- The scan of an image in two parts, before and after an injection: the tapes that begin with a whole header above the
register of the limit, and those that begin in its last bytes above it or below. -/
structure ScanParts (img : Image) (heads : List Tape) (last : Tape) (beyond : Nat) : Prop where
  short : last.length ≤ 2
  headers : ∀ head ∈ heads, 3 ≤ head.length
  base : partitionBase ≤ img.status.programLimit
  reported : img.reported =
    (continued heads (img.tape (7 * img.status.programLimit + 6)) ++
      visited (last.length + 7) beyond (last ++ img.tape (7 * img.status.programLimit + 6))).filterMap sighting
  catalog : img.catalog = .ok
    ((continued heads (img.tape (7 * img.status.programLimit + 6)) ++
      visited (last.length + 7) beyond
        (last ++ img.tape (7 * img.status.programLimit + 6))).foldl look Scan.start).report
  appended : ∀ bs, img.Admits bs → (img.appended bs).catalog = .ok
    ((continued heads ((img.appended bs).tape (7 * img.status.programLimit + 6)) ++
      visited (last.length + 7 * (registersFor bs.length + 1)) beyond
        (last ++ (img.appended bs).tape (7 * img.status.programLimit + 6))).foldl look Scan.start).report

theorem scanParts {img : Image} (low : img.status.programLimit ≤ img.status.programTop)
    (high : img.status.programTop < registerCount) (base : partitionBase ≤ img.status.programLimit) :
    ∃ heads last beyond, ScanParts img heads last beyond := by
  obtain ⟨top, top_eq⟩ : ∃ top : Nat, img.status.programTop = top := ⟨img.status.programTop.toNat, by omega⟩
  rw [top_eq] at low high
  have le : img.status.programLimit ≤ top := by omega
  have inside : top < registerCount := by omega
  have room : 192 ≤ img.status.programLimit := base
  obtain ⟨heads, last, beyond, short, headers, split⟩ :=
    visited_split ((img.tape (7 * top + 6)).take (7 * (top - img.status.programLimit)))
  rw [List.length_take_of_le (by simp only [length_tape]; omega)] at split
  refine ⟨heads, last, beyond, short, headers, base, ?_, ?_, fun bs admits => ?_⟩
  · rw [reported_of_le top_eq le inside, tape_split img le, split]
  · rw [catalog_of_le top_eq le inside (by omega), tape_split img le, split]
  · have fits := admits.fits
    have status := admits.status_appended
    have limit : (img.appended bs).status.programLimit = img.status.programLimit - registersFor bs.length := by
      rw [status]
    have top_eq' : (img.appended bs).status.programTop = top := by
      rw [status, ← top_eq]
    rw [catalog_of_le top_eq' (by omega) inside (by omega), limit, tape_split _ le, admits.take_tape_appended,
      show 7 * (top - (img.status.programLimit - registersFor bs.length)) + 7 =
        7 * (top - img.status.programLimit) + 7 * (registersFor bs.length + 1) by omega, split]

namespace ScanParts

variable {img : Image} {heads : List Tape} {last : Tape} {beyond : Nat} {bs : List UInt8}

theorem heads_clear (parts : ScanParts img heads last beyond) (clear : img.ClearAtLimit) :
    Clear heads (img.tape (7 * img.status.programLimit + 6)) := by
  intro head member m after seen
  have reported : (m, after) ∈ img.reported := by
    rw [parts.reported]
    exact List.mem_filterMap.2 ⟨_, List.mem_append_left _ (List.mem_map_of_mem member), seen⟩
  have := clear m after reported
  simp only [length_tape]
  omega

/-- What begins too low for a whole header above the register of the limit ends inside it. -/
theorem last_quiet (parts : ScanParts img heads last beyond) (clear : img.ClearAtLimit) :
    ∀ t ∈ visited (last.length + 7) beyond (last ++ img.tape (7 * img.status.programLimit + 6)), sighting t = none := by
  intro t member
  cases seen : sighting t with
  | none => rfl
  | some found =>
    obtain ⟨m, after⟩ := found
    have reported : (m, after) ∈ img.reported := by
      rw [parts.reported]
      exact List.mem_filterMap.2 ⟨_, List.mem_append_right _ member, seen⟩
    have far := clear m after reported
    have short := parts.short
    obtain ⟨passed, -, rest, -⟩ := mem_visited member
    have size := congrArg List.length ((eq_append_of_sighting seen).1.symm.trans rest)
    rw [List.length_append, Marker.bytes, List.length_cons, List.length_cons, List.length_cons, List.length_drop,
      List.length_append, length_tape] at size
    omega

/-- After every injection too a whole marker fits from the register of the limit on. -/
theorem long_tape (parts : ScanParts img heads last beyond) (other : Image) :
    15 < (other.tape (7 * img.status.programLimit + 6)).length := by
  have base := parts.base
  simp only [partitionBase] at base
  simp only [length_tape]
  omega

theorem entries_prefix (parts : ScanParts img heads last beyond) (clear : img.ClearAtLimit) (admits : img.Admits bs) :
    ∃ c c', img.catalog = .ok c ∧ (img.appended bs).catalog = .ok c' ∧ c.entries <+: c'.entries := by
  refine ⟨_, _, parts.catalog, parts.appended bs admits, ?_⟩
  have same := foldl_congr_of_clear parts.headers (parts.long_tape img) (parts.long_tape (img.appended bs))
    (parts.heads_clear clear) Scan.start
  unfold Scan.report
  rw [List.foldl_append, entries_foldl_of_quiet (parts.last_quiet clear), List.foldl_append, same]
  exact entries_prefix_foldl _ _

/-- A marker with a byte in the register of the limit is lost to an injection of filler bytes. -/
theorem clear_of_prefix (parts : ScanParts img heads last beyond) {filler : UInt8}
    (choice : filler = 0x20 ∨ filler = 0x21) (other : (img.tape (7 * img.status.programLimit + 6)).head? ≠ some filler)
    (admits : img.Admits (List.replicate 7 filler)) {c c' : Catalog} (before : img.catalog = .ok c)
    (after : (img.appended (List.replicate 7 filler)).catalog = .ok c') (kept : c.entries <+: c'.entries) :
    img.ClearAtLimit := by
  have tape : (img.appended (List.replicate 7 filler)).tape (7 * img.status.programLimit + 6) = _ :=
    admits.tape_appended
  rw [parts.catalog] at before
  rw [parts.appended _ admits] at after
  obtain rfl := Except.ok.inj before
  obtain rfl := Except.ok.inj after
  have clear : Clear heads (img.tape (7 * img.status.programLimit + 6)) := by
    refine Classical.byContradiction fun reaches => ?_
    refine not_entries_prefix parts.headers (parts.long_tape img) (parts.long_tape _) ?_ reaches _ _ _ kept
    rw [tape]
    exact other
  have quiet : ∀ t ∈ visited (last.length + 7 * (registersFor (List.replicate 7 filler).length + 1)) beyond
      (last ++ (img.appended (List.replicate 7 filler)).tape (7 * img.status.programLimit + 6)), sighting t = none := by
    intro t member
    obtain ⟨passed, inside, rfl, -⟩ := mem_visited member
    rw [Injection.registersFor_seven] at inside
    rw [tape, Injection.padded_seven]
    exact sighting_last_filler choice parts.short inside
  have same := foldl_congr_of_clear parts.headers (parts.long_tape img)
    (parts.long_tape (img.appended (List.replicate 7 filler))) clear Scan.start
  have count := kept.length_le
  unfold Scan.report at count
  dsimp only at count
  rw [List.foldl_append, length_entries_foldl, List.foldl_append, entries_foldl_of_quiet quiet, same] at count
  -- The first part leaves equal entries and the second part after the injection none, so it left none before either.
  have unseen : (visited (last.length + 7) beyond
      (last ++ img.tape (7 * img.status.programLimit + 6))).filterMap sighting = [] :=
    List.length_eq_zero_iff.1 (by omega)
  intro m rest member
  rw [parts.reported, List.filterMap_append, unseen, List.append_nil] at member
  obtain ⟨t, seen, found⟩ := List.mem_filterMap.1 member
  obtain ⟨head, inHeads, rfl⟩ := List.mem_map.1 seen
  have := clear head inHeads m rest found
  simp only [length_tape] at this
  omega

end ScanParts

end Image

end CalcImage
