import LuoYun.Compute.Ini
import Mathlib.Data.List.TakeDrop

/-!
# What an instance reads from its configuration disk

The tables of the image and the reader of a FAT volume agree on where everything stands: the
root directory at `0x2200`, cluster 3 at `0x6400`, the size where `__close_luoyun_ini` puts it.
They also fix the length of the chain, which goes from cluster 3 to cluster 9 and ends there
whatever the size says. So the text is read back exactly when it fits these seven clusters,
while `__close_luoyun_ini` accepts texts up to the end of the image.
-/

namespace LuoYun.Ini

open LuoYun

/-- The length of the chain in `secFat`, in bytes. -/
def chainBytes : Nat := 7 * 512

theorem image_eq {text : Bytes} {m : Mem} (h : image text = some m) :
    offData + text.length < imageSize ∧
      m = truncate ((createLuoyunIni.write offData text).write offDataLen (le32 text.length))
        imageSize := by
  unfold image closeLuoyunIni at h
  split at h
  · exact absurd h (by simp)
  · rename_i hlt
    have hpos : (((offData + text.length : Nat) : Int) - offData) = text.length := by omega
    rw [hpos] at h
    exact ⟨by omega, (Option.some.inj h).symm⟩

theorem image_accepts {text : Bytes} (h : offData + text.length < imageSize) :
    ∃ m, image text = some m := by
  have hlt : ¬ imageSize ≤ offData + text.length := by omega
  exact ⟨_, if_neg hlt⟩

/-! ## The bytes of the image -/

section

variable {text : Bytes} {m : Mem}

/-- Below the text stand the tables, the size apart. -/
theorem image_table (h : image text = some m) {i : Nat} (hi : i < offData)
    (hsize : i < offDataLen ∨ offDataLen + 4 ≤ i) : m i = createLuoyunIni i := by
  obtain ⟨hlen, rfl⟩ := image_eq h
  have hin : i < imageSize := by omega
  rw [truncate, if_pos hin]
  rcases hsize with hs | hs
  · rw [Mem.write_of_lt hs, Mem.write_of_lt hi]
  · rw [Mem.write_of_ge (by simpa using hs), Mem.write_of_lt hi]

theorem image_size (h : image text = some m) {i : Nat} (hi : i < 4) :
    m (offDataLen + i) = (le32 text.length)[i] := by
  obtain ⟨hlen, rfl⟩ := image_eq h
  have hin : offDataLen + i < imageSize := by
    unfold offDataLen imageSize
    omega
  rw [truncate, if_pos hin]
  exact Mem.write_getElem (by simpa using hi)

theorem image_text (h : image text = some m) {i : Nat} (hi : i < text.length) :
    m (offData + i) = text[i] := by
  obtain ⟨hlen, rfl⟩ := image_eq h
  have hin : offData + i < imageSize := by omega
  have hbehind : offDataLen + (le32 text.length).length ≤ offData + i := by
    rw [length_le32]
    unfold offDataLen offData
    omega
  rw [truncate, if_pos hin, Mem.write_of_ge hbehind, Mem.write_getElem hi]

end

/-! ## The geometry the tables state -/

section

variable {text : Bytes} {m : Mem}

theorem le16_table (h : image text = some m) {i : Nat} (hi : i + 1 < offDataLen) :
    Fat.le16 m i = (createLuoyunIni i).toNat + 256 * (createLuoyunIni (i + 1)).toNat := by
  have hd : offDataLen < offData := by decide
  rw [Fat.le16, image_table h (by omega) (.inl (by omega)), image_table h (by omega) (.inl hi)]

theorem byte_table (h : image text = some m) {i : Nat} (hi : i < offDataLen) :
    m i = createLuoyunIni i := by
  have hd : offDataLen < offData := by decide
  exact image_table h (by omega) (.inl hi)

theorem sectorSize_image (h : image text = some m) : Fat.sectorSize m = 512 := by
  rw [Fat.sectorSize, le16_table h (by decide)]
  decide

theorem clusterSize_image (h : image text = some m) : Fat.clusterSize m = 512 := by
  rw [Fat.clusterSize, sectorSize_image h, byte_table h (by decide)]
  decide

theorem fatStart_image (h : image text = some m) : Fat.fatStart m = offFat1 := by
  rw [Fat.fatStart, sectorSize_image h, le16_table h (by decide)]
  decide

theorem rootStart_image (h : image text = some m) : Fat.rootStart m = offRoot := by
  rw [Fat.rootStart, fatStart_image h, sectorSize_image h, le16_table h (by decide),
    byte_table h (by decide)]
  decide

theorem rootEntries_image (h : image text = some m) : Fat.rootEntries m = 512 := by
  rw [Fat.rootEntries, le16_table h (by decide)]
  decide

theorem dataStart_image (h : image text = some m) : Fat.dataStart m = 0x6200 := by
  rw [Fat.dataStart, rootStart_image h, rootEntries_image h]
  decide

theorem clusters_image (h : image text = some m) : Fat.clusters m = 1999 := by
  rw [Fat.clusters, sectorSize_image h, clusterSize_image h, dataStart_image h,
    le16_table h (by decide)]
  decide

/-- Cluster 3 is where the text was written. -/
theorem clusterStart_image (h : image text = some m) : Fat.clusterStart m 3 = offData := by
  rw [Fat.clusterStart, dataStart_image h, clusterSize_image h]
  decide

/-! ## The chain and the root entry -/

theorem entry_image (h : image text = some m) {n : Nat} (hn : n < 10) :
    Fat.entry m n = if n % 2 = 0
      then ((createLuoyunIni (offFat1 + n * 3 / 2)).toNat +
        256 * (createLuoyunIni (offFat1 + n * 3 / 2 + 1)).toNat) % 4096
      else ((createLuoyunIni (offFat1 + n * 3 / 2)).toNat +
        256 * (createLuoyunIni (offFat1 + n * 3 / 2 + 1)).toNat) / 16 := by
  have hin : offFat1 + n * 3 / 2 + 1 < offDataLen := by
    unfold offFat1 offDataLen
    omega
  rw [Fat.entry, fatStart_image h, le16_table h hin]

/-- The chain goes from cluster 3 to cluster 9. -/
theorem chain_image (h : image text = some m) (fuel : Nat) :
    Fat.chain m (fuel + 7) 3 = List.range' 3 7 := by
  have hlink : ∀ n, n < 10 → ∀ k, (if n % 2 = 0
      then ((createLuoyunIni (offFat1 + n * 3 / 2)).toNat +
        256 * (createLuoyunIni (offFat1 + n * 3 / 2 + 1)).toNat) % 4096
      else ((createLuoyunIni (offFat1 + n * 3 / 2)).toNat +
        256 * (createLuoyunIni (offFat1 + n * 3 / 2 + 1)).toNat) / 16) = k →
      Fat.entry m n = k := by
    intro n hn k hk
    rw [entry_image h hn, hk]
  rw [Fat.chain_link (by decide) (hlink 3 (by decide) 4 (by decide)),
    Fat.chain_link (by decide) (hlink 4 (by decide) 5 (by decide)),
    Fat.chain_link (by decide) (hlink 5 (by decide) 6 (by decide)),
    Fat.chain_link (by decide) (hlink 6 (by decide) 7 (by decide)),
    Fat.chain_link (by decide) (hlink 7 (by decide) 8 (by decide)),
    Fat.chain_link (by decide) (hlink 8 (by decide) 9 (by decide)),
    Fat.chain_link (by decide) (hlink 9 (by decide) 0xfff (by decide)),
    Fat.chain_end (by decide)]
  rfl

/-- The seven clusters are one piece of the image. -/
theorem contents_image (h : image text = some m) :
    Fat.contents m 3 = Fat.read m offData chainBytes := by
  have hfuel : Fat.clusters m = 1992 + 7 := clusters_image h
  rw [Fat.contents, hfuel, chain_image h, Fat.flatMap_upwards 3 (by decide),
    clusterStart_image h, clusterSize_image h]
  rfl

theorem read_table (h : image text = some m) {off n : Nat} (hn : off + n ≤ offDataLen) :
    Fat.read m off n = createLuoyunIni.slice off n :=
  Mem.slice_congr fun _ hi => byte_table h (by omega)

/-- The second root entry is the file: the first one holds its long name. -/
theorem findEntry_image (h : image text = some m) :
    Fat.findEntry m fileName (Fat.rootEntries m) (Fat.rootStart m) = some (offRoot + 32) := by
  have hfirst : m offRoot ≠ 0 := by
    rw [byte_table h (by decide)]
    decide
  have hlong : ¬ ((m (offRoot + 11)).toNat / 8 % 2 = 0 ∧ Fat.read m offRoot 11 = fileName) := by
    rw [byte_table h (by decide), read_table h (by decide)]
    decide
  have hsecond : m (offRoot + 32) ≠ 0 := by
    rw [byte_table h (by decide)]
    decide
  have hname : (m (offRoot + 32 + 11)).toNat / 8 % 2 = 0 ∧
      Fat.read m (offRoot + 32) 11 = fileName := by
    rw [byte_table h (by decide), read_table h (by decide)]
    decide
  rw [rootEntries_image h, rootStart_image h, Fat.findEntry, if_neg hfirst, if_neg hlong,
    Fat.findEntry, if_neg hsecond, if_pos hname]

theorem startCluster_image (h : image text = some m) : Fat.le16 m (offRoot + 32 + 26) = 3 := by
  rw [le16_table h (by decide)]
  decide

/-- The size in the root entry is the length of the text. -/
theorem fileSize_image (h : image text = some m) :
    Fat.le32 m (offRoot + 32 + 28) = text.length := by
  have hlen : text.length < imageSize := by
    have := (image_eq h).1
    omega
  have h0 := image_size h (i := 0) (by decide)
  have h1 := image_size h (i := 1) (by decide)
  have h2 := image_size h (i := 2) (by decide)
  have h3 := image_size h (i := 3) (by decide)
  have hu : toUInt32 text.length = text.length := by
    unfold toUInt32
    unfold imageSize at hlen
    omega
  simp only [le32, hu, List.getElem_cons_zero, List.getElem_cons_succ] at h0 h1 h2 h3
  have hpos : offRoot + 32 + 28 = offDataLen + 0 := by decide
  rw [hpos, Fat.le32, Fat.le16, Fat.le16]
  simp only [Nat.add_assoc, Nat.reduceAdd] at h0 h1 h2 h3 ⊢
  rw [h0, h1, h2, h3]
  simp only [UInt8.toNat_ofNat']
  unfold imageSize at hlen
  omega

end

/-! ## The round trip -/

/-- What a reader of the volume gets: the text as far as the chain goes. -/
theorem readFile_image {text : Bytes} {m : Mem} (h : image text = some m) :
    Fat.readFile m fileName = some (text.take chainBytes) := by
  have htext : ∀ k, k ≤ text.length → Fat.read m offData k = text.take k := by
    intro k hk
    apply List.ext_getElem
    · simp [hk]
    · intro i hi _
      have hi' : i < text.length := by
        rw [Fat.length_read] at hi
        omega
      simp only [Fat.read, List.getElem_map, List.getElem_range, List.getElem_take]
      exact image_text h hi'
  rw [Fat.readFile, findEntry_image h, Option.map_some, startCluster_image h, contents_image h,
    fileSize_image h, Fat.take_read, htext _ (Nat.min_le_left _ _), Nat.min_comm]
  rcases Nat.le_total chainBytes text.length with hle | hle
  · rw [Nat.min_eq_left hle]
  · rw [Nat.min_eq_right hle, List.take_of_length_le hle, List.take_of_length_le (Nat.le_refl _)]

/-- **When an instance reads the configuration that was written for it.** -/
theorem ini_round_trip_iff (g : ClcAddress) (ci : CtrlInstance) (m : Mem)
    (h : domainRunIni g ci = some m) :
    Fat.readFile m fileName = some (confText g ci) ↔ (confText g ci).length ≤ 3584 := by
  rw [readFile_image h, Option.some.injEq, List.take_eq_self_iff]
  rfl

/-- The address of a controller. -/
def sampleClc : ClcAddress := ⟨cstr "10.0.0.1", 1369, cstr "228.0.0.1", 1370⟩

/-- A request with no more than a tag fits. -/
theorem ini_round_trip_short :
    ∃ m, domainRunIni sampleClc { osmTag := 7 } = some m ∧
      Fat.readFile m fileName = some (confText sampleClc { osmTag := 7 }) := by
  obtain ⟨m, hm⟩ := image_accepts
    (show offData + (confText sampleClc { osmTag := 7 }).length < imageSize by decide)
  exact ⟨m, hm, (ini_round_trip_iff sampleClc { osmTag := 7 } m hm).mpr (by decide)⟩

/-- A tag and 3600 bytes of `JSON`. -/
def longConf : CtrlInstance := { osmTag := 7, osmJson := some (List.replicate 3600 120) }

/-- The image of `longConf` is accepted and is not read back. -/
theorem ini_cut_off :
    ∃ m, domainRunIni sampleClc longConf = some m ∧
      Fat.readFile m fileName ≠ some (confText sampleClc longConf) := by
  obtain ⟨m, hm⟩ := image_accepts
    (show offData + (confText sampleClc longConf).length < imageSize by decide +kernel)
  refine ⟨m, hm, ?_⟩
  intro h
  have hcut := Option.some.inj ((readFile_image hm).symm.trans h)
  have hlen := (List.take_eq_self_iff _).mp hcut
  exact absurd hlen (by decide +kernel)

end LuoYun.Ini
