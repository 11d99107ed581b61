import SwitchPaxos.Base.Hexadecimal

/-!
# Ethernet addresses as text

`parse_mac` looks at the length of the whole text only and leaves the groups
between the colons to `int` and `chr`.  What it accepts is more than six groups
of two digits, and the bytes it returns may be fewer than six.
-/

namespace SwitchPaxos

namespace Ethernet

/-- The exceptions of Python that the conversions can end in. -/
inductive Exception where
  | assertionError
  | valueError
  | overflowError
deriving DecidableEq

def COLON : UInt8 := 0x3A

/-- `chr` takes a C `long`, and of these the numbers of a byte. -/
def FitsLong (n : ℤ) : Prop := -2 ^ 63 ≤ n ∧ n < 2 ^ 63

def IsByte (n : ℤ) : Prop := 0 ≤ n ∧ n < 256

instance (n : ℤ) : Decidable (FitsLong n) := inferInstanceAs (Decidable (_ ∧ _))

instance (n : ℤ) : Decidable (IsByte n) := inferInstanceAs (Decidable (_ ∧ _))

def chr (n : ℤ) : Except Exception UInt8 :=
  if ¬ FitsLong n then .error .overflowError
  else if IsByte n then .ok (UInt8.ofNat n.toNat)
  else .error .valueError

def int (text : Bytes) : Except Exception ℤ :=
  match intBase16 text with
  | some n => .ok n
  | none => .error .valueError

/-- Converts MAC address "aa:bb:cc:dd:ee:ff" to raw bytes. -/
def str2mac (s : Bytes) : Except Exception Bytes := do
  if s.length = 17 then
    let numbers ← (s.splitOn COLON).mapM int
    numbers.mapM chr
  else
    .error .assertionError

/-- Convert raw MAC bytes to string. -/
def mac2str (s : Bytes) : Except Exception Bytes :=
  if s.length = 6 then .ok ([COLON].intercalate (s.map hexByte))
  else .error .assertionError

/-- Parse MAC address from string and return its raw bytes. -/
def parseMac (s : Bytes) : Except Exception Bytes :=
  match str2mac s with
  | .error .assertionError => .error .valueError
  | result => result

/-- Six groups of two hexadecimal digits, separated by colons. -/
def WellFormed (s : Bytes) : Prop :=
  (s.splitOn COLON).length = 6 ∧ ∀ group ∈ s.splitOn COLON, HexPair group

instance (s : Bytes) : Decidable (WellFormed s) :=
  inferInstanceAs (Decidable (_ ∧ _))

/-- The six bytes that a text writes. -/
def Writes (s b : Bytes) : Prop :=
  b.length = 6 ∧ mac2str b = .ok (lower s)

/-- A text of the right length with numbers between its colons: either all of
them are bytes, but the text is not well formed, or one is out of range even
for a C `long`. -/
def Slips (s : Bytes) : Prop :=
  s.length = 17 ∧
    (∀ group ∈ s.splitOn COLON, intBase16 group ≠ none) ∧
    ((¬ WellFormed s ∧
        ∀ group ∈ s.splitOn COLON, ∀ n ∈ intBase16 group, IsByte n) ∨
      ∃ group ∈ s.splitOn COLON, ∃ n ∈ intBase16 group, ¬ FitsLong n)

theorem IsByte.fitsLong {n : ℤ} (byte : IsByte n) : FitsLong n := by
  unfold IsByte FitsLong at *
  omega

theorem chr_of_isByte {n : ℤ} (byte : IsByte n) :
    chr n = .ok (UInt8.ofNat n.toNat) := by
  rw [chr, if_neg (not_not_intro byte.fitsLong), if_pos byte]

theorem mapM_int (groups : List Bytes) :
    (groups.mapM int = .error .valueError ∧
      ∃ group ∈ groups, intBase16 group = none) ∨
    ∃ numbers, groups.mapM int = .ok numbers ∧
      groups.map intBase16 = numbers.map some := by
  induction groups with
  | nil => exact .inr ⟨[], rfl, rfl⟩
  | cons group groups induction =>
      rw [List.mapM_cons]
      cases read : intBase16 group with
      | none =>
          left
          refine ⟨?_, group, List.mem_cons_self, read⟩
          rw [int, read]
          rfl
      | some n =>
          rcases induction with ⟨failed, other, member, unread⟩ |
            ⟨numbers, done, same⟩
          · left
            refine ⟨?_, other, List.mem_cons_of_mem _ member, unread⟩
            rw [int, read, failed]
            rfl
          · right
            refine ⟨n :: numbers, ?_, ?_⟩
            · rw [int, read, done]
              rfl
            · rw [List.map_cons, read, same, List.map_cons]

theorem mapM_chr_of_forall {numbers : List ℤ}
    (bytes : ∀ n ∈ numbers, IsByte n) :
    numbers.mapM chr = .ok (numbers.map fun n => UInt8.ofNat n.toNat) := by
  induction numbers with
  | nil => rfl
  | cons n numbers induction =>
      rw [List.mapM_cons, chr_of_isByte (bytes n List.mem_cons_self),
        induction fun m member => bytes m (List.mem_cons_of_mem _ member)]
      rfl

/-- It raises `ValueError` if some number is no byte, as long as all of them
fit. -/
theorem mapM_chr_of_exists {numbers : List ℤ}
    (fit : ∀ n ∈ numbers, FitsLong n) (beyond : ∃ n ∈ numbers, ¬ IsByte n) :
    numbers.mapM chr = .error .valueError := by
  induction numbers with
  | nil =>
      obtain ⟨n, member, -⟩ := beyond
      cases member
  | cons n numbers induction =>
      rw [List.mapM_cons]
      by_cases byte : IsByte n
      · have rest : ∃ m ∈ numbers, ¬ IsByte m := by
          obtain ⟨m, member, larger⟩ := beyond
          rcases List.mem_cons.mp member with rfl | member
          · exact absurd byte larger
          · exact ⟨m, member, larger⟩
        rw [chr_of_isByte byte, induction
          (fun m member => fit m (List.mem_cons_of_mem _ member)) rest]
        rfl
      · rw [chr, if_neg (not_not_intro (fit n List.mem_cons_self)),
          if_neg byte]
        rfl

variable {s b : Bytes}

/-- A number that does not fit a C `long` takes up the whole text. -/
theorem splitOn_of_not_fitsLong (length : s.length = 17)
    (numbers : ∀ group ∈ s.splitOn COLON, intBase16 group ≠ none)
    {group : Bytes} (member : group ∈ s.splitOn COLON) {n : ℤ}
    (read : intBase16 group = some n) (large : ¬ FitsLong n) :
    s.splitOn COLON = [group] := by
  have digits : 16 ≤ group.length := by
    by_contra short
    have bound := natAbs_intBase16_lt read
    have power : 16 ^ group.length ≤ 16 ^ 15 :=
      Nat.pow_le_pow_right (by decide) (by omega)
    unfold FitsLong at large
    norm_num at power large
    omega
  have nonempty : ∀ other ∈ s.splitOn COLON, 2 ≤ other.length + 1 := by
    intro other among
    by_contra short
    obtain rfl := List.length_eq_zero_iff.mp (by omega : other.length = 0)
    exact numbers [] among intBase16_nil
  have total := length_intercalate_singleton COLON
    (List.splitOn_ne_nil COLON s)
  rw [List.intercalate_splitOn, length] at total
  obtain ⟨before, after, whole⟩ := List.append_of_mem member
  have counted : ∀ groups : List Bytes, groups ⊆ s.splitOn COLON →
      2 * groups.length ≤
        (groups.map fun group : List UInt8 => group.length + 1).sum := by
    intro groups subset
    induction groups with
    | nil => exact Nat.zero_le _
    | cons other groups induction =>
        have rest := induction fun other among =>
          subset (List.mem_cons_of_mem _ among)
        have first := nonempty other (subset List.mem_cons_self)
        rw [List.map_cons, List.sum_cons, List.length_cons]
        omega
  have early := counted before (by
    intro other among
    rw [whole]
    exact List.mem_append_left _ among)
  have late := counted after (by
    intro other among
    rw [whole]
    exact List.mem_append_right _ (List.mem_cons_of_mem _ among))
  rw [whole, List.map_append, List.map_cons, List.sum_append,
    List.sum_cons] at total
  rw [whole, List.length_eq_zero_iff.mp (by omega : before.length = 0),
    List.length_eq_zero_iff.mp (by omega : after.length = 0)]
  rfl

theorem lowerChar_eq_colon {char : UInt8} :
    lowerChar char = COLON ↔ char = COLON := by
  rw [← UInt8.toNat_inj, ← UInt8.toNat_inj, toNat_lowerChar]
  have : COLON.toNat = 0x3A := rfl
  split <;> omega

theorem splitOn_lower (s : Bytes) :
    (lower s).splitOn COLON = (s.splitOn COLON).map lower := by
  induction s with
  | nil => rfl
  | cons char s induction =>
      rw [lower, List.map_cons, ← lower, List.splitOn_cons_eq_if_modifyHead,
        List.splitOn_cons_eq_if_modifyHead, induction]
      by_cases colon : char = COLON
      · rw [if_pos (beq_iff_eq.mpr (lowerChar_eq_colon.mpr colon)),
          if_pos (beq_iff_eq.mpr colon)]
        rfl
      · rw [if_neg (by rwa [beq_iff_eq, lowerChar_eq_colon]),
          if_neg (by rwa [beq_iff_eq])]
        cases s.splitOn COLON <;> rfl

theorem colon_not_mem_of_hexPair {group : Bytes} (pair : HexPair group) :
    COLON ∉ group := by
  intro member
  exact pair.2 COLON member rfl

theorem splitOn_mac (some : b ≠ []) :
    ([COLON].intercalate (b.map hexByte)).splitOn COLON = b.map hexByte := by
  apply List.splitOn_intercalate
  · intro group member
    obtain ⟨byte, -, rfl⟩ := List.mem_map.mp member
    exact colon_not_mem_of_hexPair (hexPair_hexByte byte)
  · simpa using some

theorem Writes.wellFormed (writes : Writes s b) : WellFormed s := by
  obtain ⟨length, written⟩ := writes
  have some : b ≠ [] := List.ne_nil_of_length_pos (by omega)
  rw [mac2str, if_pos length, Except.ok.injEq] at written
  have groups := splitOn_mac some
  rw [written, splitOn_lower] at groups
  constructor
  · have count := congrArg List.length groups
    rwa [List.length_map, List.length_map, length] at count
  · intro group member
    have lowered : lower group ∈ b.map hexByte := by
      rw [← groups]
      exact List.mem_map_of_mem member
    obtain ⟨byte, -, same⟩ := List.mem_map.mp lowered
    rw [← hexPair_lower, ← same]
    exact hexPair_hexByte byte

theorem hexPair_byte {group : Bytes} (pair : HexPair group) :
    ∃ byte : UInt8, intBase16 group = some (byte.toNat : ℤ) ∧
      lower group = hexByte byte := by
  obtain ⟨high, low, x, y, rfl, first, second⟩ := hexPair_iff.mp pair
  have bound := lt_of_hexValue first
  have bound' := lt_of_hexValue second
  have value : (UInt8.ofNat (16 * x + y)).toNat = 16 * x + y := by
    rw [UInt8.toNat_ofNat']
    omega
  refine ⟨UInt8.ofNat (16 * x + y), ?_, ?_⟩
  · rw [value, intBase16_pair first second]
  · rw [hexByte, value, lower, List.map_cons, List.map_cons, List.map_nil,
      lowerChar_of_hexValue first, lowerChar_of_hexValue second]
    rw [show (16 * x + y) / 16 = x by omega,
      show (16 * x + y) % 16 = y by omega]

theorem hexPairs_bytes {groups : List Bytes}
    (pairs : ∀ group ∈ groups, HexPair group) :
    ∃ b : Bytes, groups.map intBase16 =
        b.map (fun byte => some (byte.toNat : ℤ)) ∧
      groups.map lower = b.map hexByte := by
  induction groups with
  | nil => exact ⟨[], rfl, rfl⟩
  | cons group groups induction =>
      obtain ⟨byte, read, written⟩ :=
        hexPair_byte (pairs group List.mem_cons_self)
      obtain ⟨b, reads, writes⟩ := induction fun other member =>
        pairs other (List.mem_cons_of_mem _ member)
      refine ⟨byte :: b, ?_, ?_⟩
      · rw [List.map_cons, List.map_cons, read, reads]
      · rw [List.map_cons, List.map_cons, written, writes]

theorem length_of_wellFormed (wellFormed : WellFormed s) : s.length = 17 := by
  have total := length_intercalate_singleton COLON
    (List.splitOn_ne_nil COLON s)
  have pairs : (s.splitOn COLON).map (fun group => group.length + 1) =
      List.replicate 6 3 := by
    rw [List.eq_replicate_iff, List.length_map]
    refine ⟨wellFormed.1, ?_⟩
    intro size member
    obtain ⟨group, among, rfl⟩ := List.mem_map.mp member
    rw [(wellFormed.2 group among).1]
  rw [List.intercalate_splitOn, pairs] at total
  exact Nat.succ.inj total

theorem str2mac_of_reads (length : s.length = 17)
    (reads : (s.splitOn COLON).map intBase16 =
      b.map fun byte => some (byte.toNat : ℤ)) : str2mac s = .ok b := by
  rcases mapM_int (s.splitOn COLON) with ⟨-, group, member, unread⟩ |
    ⟨numbers, done, same⟩
  · have read : intBase16 group ∈ (s.splitOn COLON).map intBase16 :=
      List.mem_map_of_mem member
    rw [reads, unread] at read
    obtain ⟨byte, -, impossible⟩ := List.mem_map.mp read
    cases impossible
  · have values : numbers = b.map fun byte => (byte.toNat : ℤ) := by
      rw [reads] at same
      apply List.map_injective_iff.mpr (Option.some_injective ℤ)
      rw [← same, List.map_map]
      rfl
    have bytes : ∀ n ∈ numbers, IsByte n := by
      intro n member
      rw [values] at member
      obtain ⟨byte, -, rfl⟩ := List.mem_map.mp member
      have := byte.toNat_lt
      unfold IsByte
      omega
    have back : numbers.map (fun n => UInt8.ofNat n.toNat) = b := by
      rw [values, List.map_map]
      exact List.map_id'' (fun byte => by simp) b
    rw [str2mac, if_pos length, done]
    change numbers.mapM chr = _
    rw [mapM_chr_of_forall bytes, back]

theorem parseMac_of_ok (converted : str2mac s = .ok b) :
    parseMac s = .ok b := by
  rw [parseMac, converted]

theorem parseMac_of_wellFormed (wellFormed : WellFormed s) :
    ∃ b, parseMac s = .ok b ∧ Writes s b := by
  obtain ⟨b, reads, writes⟩ := hexPairs_bytes wellFormed.2
  have count : b.length = 6 := by
    have same := congrArg List.length writes
    rw [List.length_map, List.length_map, wellFormed.1] at same
    exact same.symm
  refine ⟨b, ?_, count, ?_⟩
  · exact parseMac_of_ok
      (str2mac_of_reads (length_of_wellFormed wellFormed) reads)
  · rw [mac2str, if_pos count, ← writes, ← splitOn_lower,
      List.intercalate_splitOn]

/-- Six bytes are read back from the text they are written as. -/
theorem str2mac_mac2str (length : b.length = 6) :
    ∃ s, mac2str b = .ok s ∧ str2mac s = .ok b := by
  refine ⟨[COLON].intercalate (b.map hexByte), ?_, ?_⟩
  · rw [mac2str, if_pos length]
  · have groups := splitOn_mac (List.ne_nil_of_length_pos (by omega) : b ≠ [])
    have wellFormed : WellFormed ([COLON].intercalate (b.map hexByte)) := by
      rw [WellFormed, groups, List.length_map]
      refine ⟨length, ?_⟩
      intro group member
      obtain ⟨byte, -, rfl⟩ := List.mem_map.mp member
      exact hexPair_hexByte byte
    apply str2mac_of_reads (length_of_wellFormed wellFormed)
    rw [groups, List.map_map]
    exact List.map_congr_left fun byte _ => intBase16_hexByte byte

theorem str2mac_of_numbers (length : s.length = 17)
    (reads : ∀ group ∈ s.splitOn COLON, intBase16 group ≠ none) :
    ∃ numbers : List ℤ, str2mac s = numbers.mapM chr ∧
      ∀ n, n ∈ numbers ↔
        ∃ group ∈ s.splitOn COLON, intBase16 group = some n := by
  rcases mapM_int (s.splitOn COLON) with ⟨-, group, member, unread⟩ |
    ⟨numbers, done, same⟩
  · exact absurd unread (reads group member)
  · refine ⟨numbers, ?_, ?_⟩
    · rw [str2mac, if_pos length, done]
      rfl
    · intro n
      rw [← List.mem_map, same, List.mem_map_of_injective
        (Option.some_injective ℤ)]

theorem parseMac_of_group (length : s.length = 17) {group : Bytes}
    (member : group ∈ s.splitOn COLON) (unread : intBase16 group = none) :
    parseMac s = .error .valueError := by
  rcases mapM_int (s.splitOn COLON) with ⟨failed, -⟩ | ⟨numbers, -, same⟩
  · have raised : str2mac s = .error .valueError := by
      rw [str2mac, if_pos length, failed]
      rfl
    rw [parseMac, raised]
  · have read : intBase16 group ∈ (s.splitOn COLON).map intBase16 :=
      List.mem_map_of_mem member
    rw [same, unread] at read
    simp at read

/-- The text is rejected with `ValueError`, or parsed to the bytes it writes.
-/
def Honest (s : Bytes) : Prop :=
  parseMac s = .error .valueError ∨ ∃ b, parseMac s = .ok b ∧ Writes s b

/-- A number out of range for a C `long` ends in `OverflowError`. -/
theorem not_honest_of_not_fitsLong (length : s.length = 17)
    (reads : ∀ group ∈ s.splitOn COLON, intBase16 group ≠ none)
    {group : Bytes} (member : group ∈ s.splitOn COLON) {n : ℤ}
    (read : intBase16 group = some n) (large : ¬ FitsLong n) : ¬ Honest s := by
  have only := splitOn_of_not_fitsLong length reads member read large
  have raised : str2mac s = .error .overflowError := by
    rw [str2mac, if_pos length, only, List.mapM_cons, int, read]
    change [n].mapM chr = _
    rw [List.mapM_cons, chr, if_pos large]
    rfl
  have overflow : parseMac s = .error .overflowError := by
    rw [parseMac, raised]
  rintro (rejected | ⟨b, parsed, -⟩)
  · rw [overflow] at rejected
    cases rejected
  · rw [overflow] at parsed
    cases parsed

/-- Where all numbers are bytes, only a well-formed text writes what it is
parsed to. -/
theorem honest_iff_wellFormed (length : s.length = 17)
    (reads : ∀ group ∈ s.splitOn COLON, intBase16 group ≠ none)
    (bytes : ∀ group ∈ s.splitOn COLON, ∀ n ∈ intBase16 group, IsByte n) :
    Honest s ↔ WellFormed s := by
  constructor
  · rintro (rejected | ⟨b, -, writes⟩)
    · obtain ⟨numbers, converted, listed⟩ := str2mac_of_numbers length reads
      have all : ∀ n ∈ numbers, IsByte n := by
        intro n member
        obtain ⟨group, among, read⟩ := (listed n).mp member
        exact bytes group among n read
      rw [mapM_chr_of_forall all] at converted
      rw [parseMac_of_ok converted] at rejected
      cases rejected
    · exact writes.wellFormed
  · intro wellFormed
    exact .inr (parseMac_of_wellFormed wellFormed)

theorem parseMac_of_exists (length : s.length = 17)
    (reads : ∀ group ∈ s.splitOn COLON, intBase16 group ≠ none)
    (fit : ∀ group ∈ s.splitOn COLON, ∀ n ∈ intBase16 group, FitsLong n)
    (beyond : ∃ group ∈ s.splitOn COLON, ∃ n ∈ intBase16 group, ¬ IsByte n) :
    parseMac s = .error .valueError := by
  obtain ⟨numbers, converted, listed⟩ := str2mac_of_numbers length reads
  have raised : numbers.mapM chr = .error .valueError := by
    apply mapM_chr_of_exists
    · intro n member
      obtain ⟨group, among, read⟩ := (listed n).mp member
      exact fit group among n read
    · obtain ⟨group, among, n, read, larger⟩ := beyond
      exact ⟨n, (listed n).mpr ⟨group, among, read⟩, larger⟩
  rw [parseMac, converted, raised]

theorem honest_iff_not_slips (s : Bytes) : Honest s ↔ ¬ Slips s := by
  by_cases length : s.length = 17
  · by_cases reads : ∀ group ∈ s.splitOn COLON, intBase16 group ≠ none
    · by_cases bytes :
        ∀ group ∈ s.splitOn COLON, ∀ n ∈ intBase16 group, IsByte n
      · rw [honest_iff_wellFormed length reads bytes]
        constructor
        · rintro wellFormed ⟨-, -, ⟨other, -⟩ | ⟨group, among, n, read, large⟩⟩
          · exact other wellFormed
          · exact large (bytes group among n read).fitsLong
        · intro sound
          by_contra other
          exact sound ⟨length, reads, .inl ⟨other, bytes⟩⟩
      · push Not at bytes
        by_cases fit :
          ∀ group ∈ s.splitOn COLON, ∀ n ∈ intBase16 group, FitsLong n
        · have refused := parseMac_of_exists length reads fit bytes
          refine iff_of_true (.inl refused) ?_
          rintro ⟨-, -, ⟨-, all⟩ | ⟨group, among, n, read, large⟩⟩
          · obtain ⟨group, among, n, read, larger⟩ := bytes
            exact larger (all group among n read)
          · exact large (fit group among n read)
        · push Not at fit
          obtain ⟨group, among, n, read, large⟩ := fit
          refine iff_of_false
            (not_honest_of_not_fitsLong length reads among read large) ?_
          exact not_not_intro
            ⟨length, reads, .inr ⟨group, among, n, read, large⟩⟩
    · push Not at reads
      obtain ⟨group, among, unread⟩ := reads
      refine iff_of_true (.inl (parseMac_of_group length among unread)) ?_
      rintro ⟨-, all, -⟩
      exact all group among unread
  · have raised : str2mac s = .error .assertionError := by
      rw [str2mac, if_neg length]
    refine iff_of_true (.inl ?_) fun slips => length slips.1
    rw [parseMac, raised]

/-- Any text is rejected with `ValueError` or parsed to six bytes that it
writes, unless it slips through; well-formed text is parsed, and what six bytes
are written as is read back. -/
theorem parseMac_spec (s address : Bytes) :
    ((parseMac s = .error .valueError ∨
      ∃ b, parseMac s = .ok b ∧ b.length = 6 ∧ mac2str b = .ok (lower s)) ↔
        ¬ Slips s) ∧
    (WellFormed s → ∃ b, parseMac s = .ok b ∧ b.length = 6 ∧
      mac2str b = .ok (lower s)) ∧
    (address.length = 6 →
      ∃ text, mac2str address = .ok text ∧ str2mac text = .ok address) :=
  ⟨honest_iff_not_slips s, parseMac_of_wellFormed, str2mac_mac2str⟩

/-- `"0000000000000000a"` is a single byte, a line feed. -/
theorem zeros_are_a_mac :
    let s : Bytes := List.replicate 16 0x30 ++ [0x61]
    parseMac s = .ok [0x0A] ∧ ¬ Honest s := by
  intro s
  have parsed : parseMac s = .ok [0x0A] := by decide
  refine ⟨parsed, ?_⟩
  rintro (rejected | ⟨b, same, writes⟩)
  · rw [parsed] at rejected
    cases rejected
  · rw [parsed] at same
    cases same
    exact absurd writes.1 (by decide)

-- Seventeen letters `f` are a number, and rejected with another exception.
example : parseMac (List.replicate 17 0x66) = .error .overflowError := by
  decide

end Ethernet

end SwitchPaxos
