import Typelib.Proofs.Image.Rows

/-!
# Records that are read and written again

Bytes that are read as a record and written again come back as they were, but for two things: what
fills a gap is written as zero bytes, and a flag is written as 0 or 1, whatever number stood for it.

* `Header.encode_record`, `DirEntry.encode_record`, `TypeRef.encode_record`: the bytes of each field;
* `Record.Rewrites`: what becomes of the bytes;
* `Record.Keeps`: records that keep some of the bytes and clear the others;
* `fixed_records_invert`: the header, directory entries and type references, in both directions.
-/

namespace Typelib

namespace Record

variable {α β : Type} {r : Record α} {s : Record β} {f f' : List UInt8 → List UInt8}
  {mask mask' : List Bool} {bs : List UInt8}

/-- What the bytes at the front become when they are read and written again. -/
def Rewrites (r : Record α) (f : List UInt8 → List UInt8) : Prop :=
  ∀ bs : List UInt8, r.width ≤ bs.length → r.encode (r.decode bs) = f bs

theorem Rewrites.seq (hr : r.Rewrites f) (hs : s.Rewrites f') :
    (r.seq s).Rewrites fun bs => f bs ++ f' (bs.drop r.width) := by
  intro bs hle
  have hle : r.width + s.width ≤ bs.length := hle
  have hrest : s.width ≤ (bs.drop r.width).length := by
    rw [List.length_drop]
    omega
  simp only [Record.seq, hr bs (by omega), hs _ hrest]

theorem Rewrites.imap (hr : r.Rewrites f) {view : α → β} {back : β → α}
    (h : ∀ a, back (view a) = a) : (r.imap view back).Rewrites f := by
  intro bs hle
  simp only [Record.imap, h]
  exact hr bs hle

/-! ### Masks -/

/-- The bytes at the front that are kept, with zero bytes in place of the others. -/
def masked (mask : List Bool) (bs : List UInt8) : List UInt8 :=
  List.zipWith (fun kept b => if kept then b else 0) mask bs

theorem masked_append (mask mask' : List Bool) (bs : List UInt8) :
    masked (mask ++ mask') bs = masked mask bs ++ masked mask' (bs.drop mask.length) := by
  induction mask generalizing bs with
  | nil => rfl
  | cons kept mask ih =>
    cases bs with
    | nil => simp [masked]
    | cons b bs => exact congrArg (_ :: ·) (ih bs)

theorem masked_kept (n : Nat) (bs : List UInt8) : masked (.replicate n true) bs = bs.take n := by
  induction n generalizing bs with
  | zero => rfl
  | succ n ih =>
    cases bs with
    | nil => rfl
    | cons b bs => exact congrArg (b :: ·) (ih bs)

theorem masked_cleared {n : Nat} (h : n ≤ bs.length) :
    masked (.replicate n false) bs = .replicate n 0 := by
  induction n generalizing bs with
  | zero => rfl
  | succ n ih =>
    cases bs with
    | nil => cases h
    | cons b bs => exact congrArg (0 :: ·) (ih (Nat.le_of_succ_le_succ h))

/-- Of the bytes of the record, those of the mask are kept and the others are cleared. -/
structure Keeps (r : Record α) (mask : List Bool) : Prop where
  length : mask.length = r.width
  rewrites : r.Rewrites (masked mask)

theorem Keeps.seq (hr : r.Keeps mask) (hs : s.Keeps mask') : (r.seq s).Keeps (mask ++ mask') where
  length := by rw [List.length_append, hr.length, hs.length, Record.seq]
  rewrites bs hle := by rw [hr.rewrites.seq hs.rewrites bs hle, masked_append, hr.length]

theorem Keeps.imap (hr : r.Keeps mask) {view : α → β} {back : β → α}
    (h : ∀ a, back (view a) = a) : (r.imap view back).Keeps mask :=
  ⟨hr.length, hr.rewrites.imap h⟩

/-- The same for records that stand one after another. -/
theorem Keeps.flatMap_ofFn (hr : r.Keeps mask) (n : Nat) (hle : n * r.width ≤ bs.length) :
    (List.ofFn fun i : Fin n => r.decode (bs.drop (i * r.width))).flatMap r.encode =
      masked (List.replicate n mask).flatten bs := by
  induction n generalizing bs with
  | zero => rfl
  | succ n ih =>
    rw [Nat.succ_mul] at hle
    have hrest : n * r.width ≤ (bs.drop r.width).length := by
      rw [List.length_drop]
      omega
    have htail (i : Fin n) : bs.drop (i.succ * r.width) = (bs.drop r.width).drop (i * r.width) := by
      rw [List.drop_drop, Fin.val_succ, Nat.succ_mul, Nat.add_comm]
    simp only [List.ofFn_succ, List.flatMap_cons, Fin.val_zero, Nat.zero_mul, List.drop_zero, htail]
    rw [hr.rewrites bs (by omega), ih hrest, List.replicate_succ, List.flatten_cons, masked_append,
      hr.length]

theorem Keeps.vector (hr : r.Keeps mask) (n : Nat) :
    (Record.vector n r).Keeps (List.replicate n mask).flatten where
  length := by simp [hr.length, Record.vector]
  rewrites bs hle := by
    simp only [Record.vector, Vector.toList_ofFn]
    exact hr.flatMap_ofFn n hle

/-! ### Words -/

theorem leBytes_take {width : Nat} (h : width ≤ bs.length) :
    leBytes width (leNat (bs.take width)) = bs.take width := by
  have hlen : (bs.take width).length = width := List.length_take_of_le h
  have hback := leBytes_leNat (bs.take width)
  rwa [hlen] at hback

theorem leNat_take_lt {width : Nat} (h : width ≤ bs.length) :
    leNat (bs.take width) < byteSpan width := by
  have hlt := leNat_lt (bs.take width)
  rwa [List.length_take_of_le h] at hlt

theorem byte_keeps : byte.Keeps [true] where
  length := rfl
  rewrites bs hle := by
    cases bs with
    | nil => cases hle
    | cons b bs => rfl

theorem word16_keeps : word16.Keeps (.replicate 2 true) where
  length := rfl
  rewrites bs hle := by
    have hle : 2 ≤ bs.length := hle
    have hword : (UInt16.ofNat (leNat (bs.take 2))).toNat = leNat (bs.take 2) :=
      UInt16.toNat_ofNat_of_lt' (leNat_take_lt hle)
    show leBytes 2 (UInt16.ofNat (leNat (bs.take 2))).toNat = _
    rw [hword, leBytes_take hle, masked_kept]

theorem word32_keeps : word32.Keeps (.replicate 4 true) where
  length := rfl
  rewrites bs hle := by
    have hle : 4 ≤ bs.length := hle
    have hword : (UInt32.ofNat (leNat (bs.take 4))).toNat = leNat (bs.take 4) :=
      UInt32.toNat_ofNat_of_lt' (leNat_take_lt hle)
    show leBytes 4 (UInt32.ofNat (leNat (bs.take 4))).toNat = _
    rw [hword, leBytes_take hle, masked_kept]

theorem filler_keeps (n : Nat) : (filler n).Keeps (.replicate n false) where
  length := List.length_replicate
  rewrites _ hle := (masked_cleared hle).symm

/-- A flag comes back as 1 for set and 0 for not set. -/
theorem flag16_rewrites :
    flag16.Rewrites fun bs => leBytes 2 (if leNat (bs.take 2) = 0 then 0 else 1) := by
  intro bs hle
  have hword : (word16.decode bs).toNat = leNat (bs.take 2) :=
    UInt16.toNat_ofNat_of_lt' (leNat_take_lt hle)
  have hzero : word16.decode bs = 0 ↔ leNat (bs.take 2) = 0 := by
    rw [← hword, ← UInt16.toNat_inj]
    rfl
  by_cases h0 : leNat (bs.take 2) = 0
  · simp only [flag16, imap, hzero.2 h0, h0]
    rfl
  · have hset : (word16.decode bs != 0) = true := by
      rw [bne_iff_ne, ne_eq, hzero]
      exact h0
    simp only [flag16, imap, hset, if_neg h0]
    rfl

end Record

open Record

/-! ### Layouts -/

/-- The bytes of a header. The magic number is at 0, the versions at 16 and 17, the counts at 20 and
22, the four words from 24 on and the sizes of the rows from 40 on. There is a gap at 18, and another
one at 82. -/
theorem Header.encode_record (h : Header) :
    Header.record.encode h =
      h.magic.toList ++ [h.major, h.minor] ++ .replicate 2 0 ++
        leBytes 2 h.entryCount.toNat ++ leBytes 2 h.localCount.toNat ++
        leBytes 4 h.directory.toNat ++ leBytes 4 h.size.toNat ++
        leBytes 4 h.namespaceName.toNat ++ leBytes 4 h.sharedLibrary.toNat ++
        h.rowSizes.toList.flatMap (fun size => leBytes 2 size.toNat) ++ .replicate 14 0 := by
  simp [Header.record, imap, seq, vector, byte, word16, word32, filler]

/-- The bytes of a directory entry: the kind at 0, the local flag at 2, the name at 4, and at 8 the
offset of a body or of the name of a namespace. -/
theorem DirEntry.encode_record (e : DirEntry) :
    DirEntry.record.encode e =
      leBytes 2 e.kind.toNat ++ leBytes 2 e.isLocal.toNat ++ leBytes 4 e.name.toNat ++
        leBytes 4 e.offset.toNat := by
  cases hlocal : e.isLocal <;>
    simp [DirEntry.record, imap, seq, word16, word32, flag16, hlocal]

/-- The bytes of a type reference: the tag at 0, the flags at 1, the slot at 2 and the offset at 4. -/
theorem TypeRef.encode_record (t : TypeRef) :
    TypeRef.record.encode t =
      [t.tag, t.flags] ++ leBytes 2 t.interface.toNat ++ leBytes 4 t.offset.toNat := by
  simp [TypeRef.record, imap, seq, byte, word16, word32]

/-! ### Rewriting -/

/-- The bytes of a header that mean something. -/
def Header.kept : List Bool :=
  .replicate 18 true ++ (.replicate 2 false ++ (.replicate 62 true ++ .replicate 14 false))

theorem Header.record_keeps : Header.record.Keeps kept :=
  ((byte_keeps.vector 16).seq <| byte_keeps.seq <| byte_keeps.seq <| (filler_keeps 2).seq <|
    word16_keeps.seq <| word16_keeps.seq <| word32_keeps.seq <| word32_keeps.seq <|
    word32_keeps.seq <| word32_keeps.seq <| (word16_keeps.vector 21).seq
    (filler_keeps 14)).imap fun _ => rfl

theorem Header.masked_kept {bs : List UInt8} (h : width ≤ bs.length) :
    masked kept bs =
      bs.take 18 ++ .replicate 2 0 ++ (bs.drop 20).take 62 ++ .replicate 14 0 := by
  rw [width_eq] at h
  have hfirst : 2 ≤ (bs.drop 18).length := by
    rw [List.length_drop]
    omega
  have hsecond : 14 ≤ (bs.drop 82).length := by
    rw [List.length_drop]
    omega
  simp only [kept, masked_append, Record.masked_kept, List.length_replicate, List.drop_drop,
    Nat.reduceAdd, masked_cleared hfirst, masked_cleared hsecond, List.append_assoc]

theorem TypeRef.record_keeps : TypeRef.record.Keeps (.replicate 8 true) :=
  (byte_keeps.seq <| byte_keeps.seq <| word16_keeps.seq word32_keeps).imap fun _ => rfl

theorem DirEntry.record_rewrites : DirEntry.record.Rewrites fun bs =>
    bs.take 2 ++ leBytes 2 (if leNat ((bs.drop 2).take 2) = 0 then 0 else 1) ++
      (bs.drop 4).take 8 := by
  -- the flag is no word that is kept, so no mask describes the whole entry
  have hparts : DirEntry.record.Rewrites fun bs => masked (.replicate 2 true) bs ++
      (leBytes 2 (if leNat ((bs.drop 2).take 2) = 0 then 0 else 1) ++
        masked (.replicate 8 true) ((bs.drop 2).drop 2)) :=
    (word16_keeps.rewrites.seq <| flag16_rewrites.seq
      (word32_keeps.seq word32_keeps).rewrites).imap fun _ => rfl
  intro bs hle
  simp only [hparts bs hle, Record.masked_kept, List.drop_drop, Nat.reduceAdd, List.append_assoc]

/-- **Fixed records are inverted in both directions.** A header, a directory entry and a type
reference read back from their bytes, whatever follows. Bytes that are read as one of these and
written again come back as they were, but for the two gaps of a header, which become zero, and the
local flag of a directory entry, which becomes 1 if it was any number but 0. -/
theorem fixed_records_invert :
    (∀ (h : Header) (rest : List UInt8),
      Header.ofBytes? (Header.record.encode h ++ rest) = some h) ∧
    (∀ (e : DirEntry) (rest : List UInt8),
      DirEntry.record.decode (DirEntry.record.encode e ++ rest) = e) ∧
    (∀ (t : TypeRef) (rest : List UInt8),
      TypeRef.record.decode (TypeRef.record.encode t ++ rest) = t) ∧
    ∀ bs : List UInt8,
      (96 ≤ bs.length → ∃ h, Header.ofBytes? bs = some h ∧ Header.record.encode h =
        bs.take 18 ++ .replicate 2 0 ++ (bs.drop 20).take 62 ++ .replicate 14 0) ∧
      (12 ≤ bs.length → DirEntry.record.encode (DirEntry.record.decode bs) =
        bs.take 2 ++ leBytes 2 (if leNat ((bs.drop 2).take 2) = 0 then 0 else 1) ++
          (bs.drop 4).take 8) ∧
      (8 ≤ bs.length → TypeRef.record.encode (TypeRef.record.decode bs) = bs.take 8) := by
  refine ⟨fun h rest => ?_, DirEntry.record_lawful.decode_encode,
    TypeRef.record_lawful.decode_encode, fun bs => ⟨fun hle => ?_, fun hle => ?_, fun hle => ?_⟩⟩
  · have hlen : ¬ (Header.record.encode h ++ rest).length < Header.width := by
      rw [List.length_append, Header.record_lawful.length_encode]
      exact Nat.not_lt.2 (Nat.le_add_right _ _)
    rw [Header.ofBytes?, if_neg hlen, Header.record_lawful.decode_encode]
  · refine ⟨Header.record.decode bs, ?_, ?_⟩
    · have hlen : ¬ bs.length < Header.width := Nat.not_lt.2 hle
      rw [Header.ofBytes?, if_neg hlen]
    · rw [Header.record_keeps.rewrites bs hle, Header.masked_kept hle]
  · exact DirEntry.record_rewrites bs hle
  · rw [TypeRef.record_keeps.rewrites bs hle, Record.masked_kept]

/-- Where every bit is set, only the gaps of a header and the local flag of an entry change. -/
theorem fixed_records_invert_sample :
    (∃ h, Header.ofBytes? (.replicate 96 255) = some h ∧ Header.record.encode h =
      .replicate 18 255 ++ .replicate 2 0 ++ .replicate 62 255 ++ .replicate 14 0) ∧
    DirEntry.record.encode (DirEntry.record.decode (.replicate 12 255)) =
      .replicate 2 255 ++ [1, 0] ++ .replicate 8 255 ∧
    TypeRef.record.encode (TypeRef.record.decode (.replicate 8 255)) = .replicate 8 255 := by
  have hback := fixed_records_invert.2.2.2
  obtain ⟨hheader, -, -⟩ := hback (.replicate 96 255)
  obtain ⟨-, hentry, -⟩ := hback (.replicate 12 255)
  obtain ⟨-, -, href⟩ := hback (.replicate 8 255)
  exact ⟨hheader (by decide), hentry (by decide), href (by decide)⟩

end Typelib
