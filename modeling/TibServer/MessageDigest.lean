import TibServer.Authenticator

/-!
The hash of `tools.cpp` is SHA-1: the bytes written to the message block, block by block, are those
of the padded message.
-/

namespace TibServer.Authenticator

open SecureHash OneTimePassword

/-! ### A block -/

theorem circularShift_eq {bits : Nat} (h : bits < 32) (value : Word) :
    circularShift bits value = value.rotateLeft bits := by
  rw [BitVec.rotateLeft_eq_rotateLeftAux_of_lt h]
  rfl

theorem messageWord_eq (messageBlock : Nat → Byte) (t : Nat) :
    messageWord messageBlock (4 * t) = word messageBlock t := by
  unfold messageWord word
  apply BitVec.eq_of_getLsbD_eq
  intro i hi
  simp only [BitVec.getLsbD_or, BitVec.getLsbD_shiftLeft, BitVec.getLsbD_setWidth,
    BitVec.getLsbD_append]
  grind

theorem ch_eq (x y z : Word) : (x &&& y) ||| (~~~x &&& z) = ch x y z := by
  unfold ch
  ext i hi
  simp only [BitVec.getElem_or, BitVec.getElem_and, BitVec.getElem_not, BitVec.getElem_xor]
  cases x[i] <;> simp

theorem maj_eq (x y z : Word) : (x &&& y) ||| (x &&& z) ||| (y &&& z) = maj x y z := by
  unfold maj
  ext i hi
  simp only [BitVec.getElem_or, BitVec.getElem_and, BitVec.getElem_xor]
  cases x[i] <;> cases y[i] <;> simp

/-! ### The schedule and the rounds -/

variable (messageBlock : Nat → Byte)

theorem getD_range {i n : Nat} (h : i < n) (g : Nat → Word) :
    ((List.range n).map g).getD i 0 = g i := by
  rw [List.getD_eq_getElem?_getD, List.getElem?_map, List.getElem?_range h]
  rfl

theorem inputWords_eq (n : Nat) (hn : n ≤ 16) :
    (List.range n).foldl (fun W i => W ++ [messageWord messageBlock (i <<< 2)]) [] =
      (List.range n).map (schedule messageBlock) := by
  induction n with
  | zero => rfl
  | succ n ih =>
      have hshift : n <<< 2 = 4 * n := by rw [Nat.shiftLeft_eq, Nat.mul_comm]
      rw [List.range_succ, List.foldl_append, ih (by omega), List.map_append, List.foldl_cons,
        List.foldl_nil, hshift, messageWord_eq, List.map_singleton,
        schedule_input _ (by omega : n < 16)]

theorem extend_eq {i : Nat} (h : 16 ≤ i) :
    extend ((List.range i).map (schedule messageBlock)) i =
      (List.range (i + 1)).map (schedule messageBlock) := by
  unfold extend
  rw [getD_range (by omega), getD_range (by omega), getD_range (by omega), getD_range (by omega),
    circularShift_eq (by omega), ← schedule_later _ h, List.range_succ, List.map_append]
  rfl

theorem messageSchedule_eq :
    messageSchedule messageBlock = (List.range 80).map (schedule messageBlock) := by
  have hloop : ∀ n, (List.range' 16 n).foldl extend
      ((List.range 16).map (schedule messageBlock)) =
        (List.range (16 + n)).map (schedule messageBlock) := by
    intro n
    induction n with
    | zero => rfl
    | succ n ih =>
        rw [List.range'_concat, List.foldl_append, ih, Nat.one_mul]
        exact extend_eq messageBlock (by omega)
  unfold messageSchedule
  rw [inputWords_eq messageBlock 16 le_rfl]
  exact hloop 64

/-- A loop of rounds with the function and the constant of its rounds. -/
theorem rounds_eq {mix : Word → Word → Word → Word} {c : Word} {first : Nat}
    (hmix : ∀ i, first ≤ i → i < first + 20 → mix = f i ∧ c = k i) (hfirst : first ≤ 60)
    (s : Digest) :
    rounds ((List.range 80).map (schedule messageBlock)) mix c first s =
      (List.range' first 20).foldl (SecureHash.round messageBlock) s := by
  unfold rounds
  apply List.foldl_ext
  intro s i hi
  obtain ⟨hge, hlt⟩ := List.mem_range'_1.mp hi
  obtain ⟨rfl, rfl⟩ := hmix i hge hlt
  unfold SecureHash.round
  simp only [getD_range (show i < 80 by omega), circularShift_eq (show 5 < 32 by omega),
    circularShift_eq (show 30 < 32 by omega)]
  congr 1
  ac_rfl

theorem processSHA1MessageBlock_eq (H : Digest) :
    processSHA1MessageBlock messageBlock H = compress H messageBlock := by
  have hrange : List.range 80 =
      List.range' 0 20 ++ List.range' 20 20 ++ List.range' 40 20 ++ List.range' 60 20 := by decide
  unfold processSHA1MessageBlock compress
  simp only [messageSchedule_eq]
  rw [rounds_eq _ (fun i _ hlt => ?_) (by omega), rounds_eq _ (fun i hge hlt => ?_) (by omega),
    rounds_eq _ (fun i hge hlt => ?_) (by omega), rounds_eq _ (fun i hge hlt => ?_) (by omega)]
  · rw [hrange, List.foldl_append, List.foldl_append, List.foldl_append]
    rfl
  all_goals
    unfold f k
  · rw [if_pos (by omega), if_pos (by omega)]
    exact ⟨funext fun x => funext fun y => funext fun z => ch_eq x y z, rfl⟩
  · rw [if_neg (by omega), if_pos (by omega), if_neg (by omega), if_pos (by omega)]
    exact ⟨rfl, rfl⟩
  · rw [if_neg (by omega), if_neg (by omega), if_pos (by omega), if_neg (by omega),
      if_neg (by omega), if_pos (by omega)]
    exact ⟨funext fun x => funext fun y => funext fun z => maj_eq x y z, rfl⟩
  · rw [if_neg (by omega), if_neg (by omega), if_neg (by omega), if_neg (by omega),
      if_neg (by omega), if_neg (by omega)]
    exact ⟨rfl, rfl⟩

/-! ### The message block -/

/-- The `i` blocks of the message before the message block are hashed, and the message block holds
what comes after them. -/
structure Holds (message : List Byte) (i : Nat) (s : Hashing) : Prop where
  length : message.length = 64 * i + s.index
  hash : s.H = chain message i
  bytes : ∀ j < s.index, s.messageBlock j = block message i j

namespace Holds

variable {message : List Byte} {i : Nat} {s : Hashing}

theorem put (h : Holds message i s) (byte : Byte) : Holds (message ++ [byte]) i (s.put byte) := by
  have hlength := h.length
  refine ⟨?_, ?_, fun j hj => ?_⟩
  · rw [List.length_append, hlength]
    rfl
  · rw [chain_append [byte] (by omega), ← h.hash]
    rfl
  · change Function.update s.messageBlock s.index byte j = _
    rcases (Nat.lt_succ_iff_lt_or_eq.mp hj) with hlt | rfl
    · rw [Function.update_of_ne (by omega), block_append [byte] (by omega), h.bytes j hlt]
    · rw [Function.update_self]
      unfold block
      rw [← hlength, List.getD_eq_getElem?_getD, List.getElem?_append_right le_rfl, Nat.sub_self]
      rfl

theorem puts (h : Holds message i s) (bytes : List Byte) :
    Holds (message ++ bytes) i (bytes.foldl Hashing.put s) := by
  induction bytes generalizing message s with
  | nil => rwa [List.append_nil]
  | cons byte bytes ih =>
      have hrest := ih (h.put byte)
      rwa [List.append_assoc] at hrest

/-- A full block is hashed. -/
theorem process (h : Holds message i s) (hfull : s.index = 64) :
    Holds message (i + 1) s.process := by
  have hlength := h.length
  refine ⟨?_, ?_, fun j hj => absurd hj (Nat.not_lt_zero j)⟩
  · change message.length = 64 * (i + 1) + 0
    omega
  · unfold Hashing.process chain
    rw [processSHA1MessageBlock_eq, ← h.hash]
    exact compress_congr (fun j hj => h.bytes j (by omega)) _

end Holds

theorem puts_index (bytes : List Byte) (s : Hashing) :
    (bytes.foldl Hashing.put s).index = s.index + bytes.length := by
  induction bytes generalizing s with
  | nil => rfl
  | cons byte bytes ih =>
      rw [List.foldl_cons, ih, List.length_cons]
      change s.index + 1 + bytes.length = _
      omega

theorem fill_eq (limit : Nat) (s : Hashing) :
    s.fill limit = (List.replicate (limit - s.index) 0).foldl Hashing.put s := by
  induction hn : limit - s.index generalizing s with
  | zero => rw [Hashing.fill, if_neg (by omega), List.replicate_zero, List.foldl_nil]
  | succ n ih =>
      have hrest : limit - (s.put 0).index = n := by
        change limit - (s.index + 1) = n
        omega
      rw [Hashing.fill, if_pos (by omega), ih _ hrest, List.replicate_succ, List.foldl_cons]

/-! ### The length -/

/-- The length in bits, in the two words. -/
def Hashing.length (s : Hashing) : BitVec 64 := s.lengthHigh ++ s.lengthLow

theorem length_toNat (s : Hashing) :
    s.length.toNat = s.lengthHigh.toNat * 2 ^ 32 + s.lengthLow.toNat := by
  unfold Hashing.length
  rw [BitVec.toNat_append, Nat.shiftLeft_eq, Nat.mul_comm, Nat.two_pow_add_eq_or_of_lt]
  exact s.lengthLow.isLt

/-- The message so far is read. -/
structure Reads (message : List Byte) (s : Hashing) : Prop where
  holds : ∃ i, Holds message i s
  index : s.index < 64
  length : s.length = BitVec.ofNat 64 (8 * message.length)

/-- The low word is a multiple of eight and comes to zero where it runs over. -/
theorem carry {high low n : Nat} (hhigh : high < 2 ^ 32) (hlow : low < 2 ^ 32)
    (h : high * 2 ^ 32 + low = 8 * n % 2 ^ 64) :
    (if (low + 8) % 2 ^ 32 = 0 then (high + 1) % 2 ^ 32 else high) * 2 ^ 32 + (low + 8) % 2 ^ 32 =
      8 * (n + 1) % 2 ^ 64 := by
  have hnext : 8 * (n + 1) % 2 ^ 64 = (high * 2 ^ 32 + low + 8) % 2 ^ 64 := by
    rw [h, Nat.mod_add_mod]
    rfl
  have height : low % 8 = 0 := by omega
  rw [hnext]
  clear hnext h
  rcases Nat.lt_or_ge (low + 8) (2 ^ 32) with hlt | hge
  · rw [Nat.mod_eq_of_lt hlt, if_neg (by omega)]
    omega
  · obtain rfl : low = 2 ^ 32 - 8 := by omega
    rw [if_pos (by decide)]
    omega

theorem length_read {high low : BitVec 32} {n : Nat}
    (h : high.toNat * 2 ^ 32 + low.toNat = 8 * n % 2 ^ 64) :
    (if low + 8 = 0 then high + 1 else high).toNat * 2 ^ 32 + (low + 8).toNat =
      8 * (n + 1) % 2 ^ 64 := by
  have hzero : low + 8 = 0 ↔ (low + 8).toNat = 0 := by
    rw [← BitVec.toNat_inj]
    rfl
  rw [← carry high.isLt low.isLt h, apply_ite BitVec.toNat]
  simp only [hzero]
  rfl

theorem Reads.read {message : List Byte} {s : Hashing} (h : Reads message s) (ch : Byte) :
    Reads (message ++ [ch]) (s.read ch) := by
  obtain ⟨i, hholds⟩ := h.holds
  have hput := hholds.put ch
  have hindex := h.index
  have hlength := congrArg BitVec.toNat h.length
  rw [length_toNat, BitVec.toNat_ofNat] at hlength
  have hlength' : (s.read ch).length = BitVec.ofNat 64 (8 * (message ++ [ch]).length) := by
    have hcount : (message ++ [ch]).length = message.length + 1 := List.length_append
    apply BitVec.eq_of_toNat_eq
    rw [length_toNat, BitVec.toNat_ofNat, hcount, ← length_read hlength]
    unfold Hashing.read
    dsimp only
    split <;> rfl
  have hindex' : (s.put ch).index = s.index + 1 := rfl
  by_cases hfull : (s.put ch).index = 64
  · have hprocess := hput.process hfull
    refine ⟨⟨i + 1, ?_⟩, ?_, hlength'⟩
    · unfold Hashing.read
      dsimp only
      rw [if_pos hfull]
      exact ⟨hprocess.length, hprocess.hash, hprocess.bytes⟩
    · unfold Hashing.read
      dsimp only
      rw [if_pos hfull]
      exact Nat.zero_lt_succ 63
  · refine ⟨⟨i, ?_⟩, ?_, hlength'⟩
    · unfold Hashing.read
      dsimp only
      rw [if_neg hfull]
      exact ⟨hput.length, hput.hash, hput.bytes⟩
    · unfold Hashing.read
      dsimp only
      rw [if_neg hfull]
      change (s.put ch).index < 64
      omega

theorem reads (messageBlock : Nat → Byte) (input : List Byte) :
    Reads input (input.foldl Hashing.read { messageBlock }) := by
  induction input using List.reverseRecOn with
  | nil =>
      have hzero : (0 : BitVec 32) ++ (0 : BitVec 32) = BitVec.ofNat 64 0 := by decide
      exact ⟨⟨0, rfl, rfl, fun j hj => absurd hj (Nat.not_lt_zero j)⟩, Nat.zero_lt_succ 63, hzero⟩
  | append_singleton input ch ih =>
      rw [List.foldl_append]
      exact ih.read ch

/-! ### The end of the message -/

@[simp] theorem process_lengthLow (s : Hashing) : s.process.lengthLow = s.lengthLow := by
  rw [Hashing.process]

@[simp] theorem process_lengthHigh (s : Hashing) : s.process.lengthHigh = s.lengthHigh := by
  rw [Hashing.process]

@[simp] theorem put_lengthLow (s : Hashing) (b : Byte) : (s.put b).lengthLow = s.lengthLow := rfl

@[simp] theorem put_lengthHigh (s : Hashing) (b : Byte) : (s.put b).lengthHigh = s.lengthHigh :=
  rfl

@[simp] theorem puts_lengthLow (bytes : List Byte) (s : Hashing) :
    (bytes.foldl Hashing.put s).lengthLow = s.lengthLow := by
  induction bytes generalizing s with
  | nil => rfl
  | cons byte bytes ih => exact ih _

@[simp] theorem puts_lengthHigh (bytes : List Byte) (s : Hashing) :
    (bytes.foldl Hashing.put s).lengthHigh = s.lengthHigh := by
  induction bytes generalizing s with
  | nil => rfl
  | cons byte bytes ih => exact ih _

theorem setWidth_shift (w : Word) (n : Nat) : (w >>> n).setWidth 8 = w.extractLsb' n 8 := by
  apply BitVec.eq_of_toNat_eq
  simp only [BitVec.toNat_setWidth, BitVec.toNat_ushiftRight, BitVec.extractLsb'_toNat]

/-- To store a word is to write its bytes. -/
theorem store_eq (s : Hashing) (w : Word) :
    Hashing.store s.index w s.messageBlock = ((wordBytes w).foldl Hashing.put s).messageBlock := by
  have hlast : w.setWidth 8 = w.extractLsb' 0 8 := by rw [← setWidth_shift, BitVec.ushiftRight_zero]
  unfold Hashing.store
  rw [setWidth_shift, setWidth_shift, setWidth_shift, hlast]
  rfl

theorem longBytes_append (high low : Word) :
    longBytes (high ++ low) = wordBytes high ++ wordBytes low := by
  unfold longBytes
  rw [BitVec.extractLsb'_append_eq_left, BitVec.extractLsb'_append_eq_right]

/-- The end of the message up to its length: the block goes on, or the rest of it is zeros. -/
theorem Holds.padded {message : List Byte} {i : Nat} {s : Hashing} (h : Holds message i s)
    (hindex : s.index < 64) :
    let s₁ := s.put 0x80
    let s₂ := (if 56 < s₁.index then (s₁.fill 64).process else s₁).fill 56
    s₂.index = 56 ∧ s₂.lengthLow = s.lengthLow ∧ s₂.lengthHigh = s.lengthHigh ∧
      ∃ i, Holds (message ++ [0x80] ++ List.replicate (zeros message.length) 0) i s₂ := by
  intro s₁
  have hlength := h.length
  have hindex₁ : s₁.index = s.index + 1 := rfl
  have h₁ := h.put 0x80
  have hzeros : zeros message.length = (119 - s.index) % 64 := by
    unfold zeros
    omega
  by_cases hspill : 56 < s₁.index
  · have hcount : zeros message.length = (64 - s₁.index) + 56 := by omega
    have hfilled := h₁.puts (List.replicate (64 - s₁.index) 0)
    have hfull : ((List.replicate (64 - s₁.index) 0).foldl Hashing.put s₁).index = 64 := by
      rw [puts_index, List.length_replicate]
      omega
    have hnext := (hfilled.process hfull).puts (List.replicate 56 0)
    rw [List.append_assoc _ (List.replicate _ _), List.replicate_append_replicate,
      ← hcount] at hnext
    rw [if_pos hspill, fill_eq, fill_eq]
    refine ⟨?_, ?_, ?_, i + 1, hnext⟩
    · rw [puts_index, List.length_replicate]
      rfl
    · rw [puts_lengthLow, process_lengthLow, puts_lengthLow, put_lengthLow]
    · rw [puts_lengthHigh, process_lengthHigh, puts_lengthHigh, put_lengthHigh]
  · have hcount : zeros message.length = 56 - s₁.index := by omega
    have hfilled := h₁.puts (List.replicate (56 - s₁.index) 0)
    rw [← hcount] at hfilled
    rw [if_neg hspill, fill_eq, ← hcount]
    refine ⟨?_, ?_, ?_, i, hfilled⟩
    · rw [puts_index, List.length_replicate]
      omega
    · rw [puts_lengthLow, put_lengthLow]
    · rw [puts_lengthHigh, put_lengthHigh]

theorem finish_eq {message : List Byte} {s : Hashing} (h : Reads message s) :
    s.finish = digest message := by
  obtain ⟨i₀, hholds⟩ := h.holds
  obtain ⟨hindex, hlow, hhigh, i, hpadded⟩ := hholds.padded h.index
  have hlast := hpadded.puts (wordBytes s.lengthHigh ++ wordBytes s.lengthLow)
  rw [← longBytes_append] at hlast
  have hpad : message ++ [0x80] ++ List.replicate (zeros message.length) 0 ++
      longBytes (s.lengthHigh ++ s.lengthLow) = pad message :=
    congrArg _ (congrArg longBytes h.length)
  rw [hpad, longBytes_append, List.foldl_append] at hlast
  unfold Hashing.finish
  dsimp only
  generalize (if 56 < (s.put 0x80).index then ((s.put 0x80).fill 64).process
    else s.put 0x80).fill 56 = t at *
  have hfull : ((wordBytes s.lengthLow).foldl Hashing.put
      ((wordBytes s.lengthHigh).foldl Hashing.put t)).index = 64 := by
    rw [puts_index, puts_index, hindex]
    rfl
  have hhash := (hlast.process hfull).hash
  have hlength := hlast.length
  rw [hfull] at hlength
  have hblocks : (pad message).length / 64 = i + 1 := by omega
  unfold digest
  rw [hblocks, ← hhash, hlow, hhigh]
  unfold Hashing.process
  have hstore := store_eq t s.lengthHigh
  have hstore' := store_eq ((wordBytes s.lengthHigh).foldl Hashing.put t) s.lengthLow
  rw [puts_index, hindex] at hstore'
  rw [hindex] at hstore
  rw [hstore]
  exact congrArg₂ processSHA1MessageBlock hstore' rfl

/-! ### The digits -/

variable (H : Digest)

theorem hexDigits_getD {n : Nat} (h : n < 16) : hexDigits.getD n ' ' = Nat.digitChar n := by
  interval_cases n <;> rfl

theorem high_digit (b : Byte) :
    hexDigits.getD (b >>> 4).toNat ' ' = Nat.digitChar (b.toNat / 16) := by
  have hlt := b.isLt
  rw [BitVec.toNat_ushiftRight, Nat.shiftRight_eq_div_pow, hexDigits_getD (by omega)]

theorem low_digit (b : Byte) :
    hexDigits.getD (b &&& 15).toNat ' ' = Nat.digitChar (b.toNat % 16) := by
  have hand : (b &&& 15).toNat = b.toNat % 16 := by
    rw [BitVec.toNat_and]
    exact Nat.and_two_pow_sub_one_eq_mod b.toNat 4
  rw [hand, hexDigits_getD (Nat.mod_lt _ (by omega))]

theorem hashByteOf_eq {n : Nat} (h : n < 20) : hashByteOf H n = H.bytes.getD n 0 := by
  unfold hashByteOf
  rw [setWidth_shift]
  interval_cases n <;> rfl

/-- The loop, by induction on the bytes that are left. -/
theorem hexLoop_eq (n : Nat) (hexstring : Nat → Char) :
    hexLoop H n hexstring =
      fun j => if j < 2 * n then hexChar (hashByteOf H (j / 2)) j else hexstring j := by
  induction n generalizing hexstring with
  | zero => rfl
  | succ n ih =>
      funext j
      have hshift : n <<< 1 = 2 * n := by rw [Nat.shiftLeft_eq, Nat.mul_comm]
      rw [hexLoop, ih, high_digit, low_digit, hshift]
      dsimp only
      rcases Nat.lt_or_ge j (2 * n) with hlt | hge
      · rw [if_pos hlt, if_pos (by omega)]
      · rw [if_neg (by omega)]
        unfold hexChar
        rcases (by omega : j = 2 * n ∨ j = 2 * n + 1 ∨ 2 * (n + 1) ≤ j) with rfl | rfl | hout
        · rw [Function.update_of_ne (by omega), Function.update_self, if_pos (by omega),
            if_pos (by omega), Nat.mul_div_cancel_left n (by omega)]
        · rw [Function.update_self, if_pos (by omega), if_neg (by omega),
            (by omega : (2 * n + 1) / 2 = n)]
        · rw [Function.update_of_ne (by omega), Function.update_of_ne (by omega),
            if_neg (by omega)]

theorem transformToSHA1_eq (messageBlock : Nat → Byte) (input : List Byte) :
    transformToSHA1 messageBlock input = hex (sha1 input) := by
  unfold transformToSHA1
  dsimp only
  rw [finish_eq (reads messageBlock input), hexLoop_eq, hex_eq_map]
  refine List.map_congr_left fun j hj => ?_
  have hlt := List.mem_range.mp hj
  rw [if_pos hlt, hashByteOf_eq _ (by omega)]
  rfl

end TibServer.Authenticator
