import Mathlib

/-!
# Records packed in a buffer that closes its gaps

A buffer holds `n` used cells. Records are described from outside by segments
`[addr, addr + len)`. A record is added at the end of the used cells; when one
is removed, the cells behind it move down over the gap and the segments of the
records behind it move with them (`closeUp`).

* `Packed n l`: the segments of `l` are non-empty, inside `[0, n)` and pairwise
  disjoint. `Tiles n l`: they also cover `[0, n)`.
* `Tiles.append`, `Tiles.closeUp`: adding and removing a record keep a tiling;
  `Tiles.not_drop`, `Tiles.not_grow`: forgetting a segment, or adding cells
  without a segment, destroys it.
* `read_append`, `read_remove`: adding a record and removing another one leave
  the contents of a record unchanged; `readAll_append`, `readAll_remove`: and
  those of several records.
-/

namespace Segments

/-- The segment `[addr, addr + len)`. -/
structure Seg where
  addr : ℤ
  len : ℕ
  deriving DecidableEq

namespace Seg

/-- The cell `k` belongs to the segment. -/
def Has (r : Seg) (k : ℤ) : Prop := r.addr ≤ k ∧ k < r.addr + r.len

instance (r : Seg) (k : ℤ) : Decidable (r.Has k) := inferInstanceAs (Decidable (_ ∧ _))

/-- The segments share no cell, one lying before the other. -/
def Apart (r s : Seg) : Prop := r.addr + r.len ≤ s.addr ∨ s.addr + s.len ≤ r.addr

/-- The segment is non-empty and lies in `[0, n)`. -/
def Inside (n : ℕ) (r : Seg) : Prop := 0 < r.len ∧ 0 ≤ r.addr ∧ r.addr + r.len ≤ n

instance (r s : Seg) : Decidable (r.Apart s) := inferInstanceAs (Decidable (_ ∨ _))

instance (n : ℕ) (r : Seg) : Decidable (r.Inside n) := inferInstanceAs (Decidable (_ ∧ _ ∧ _))

/-- Where `r` lies once the segment `d` has been cut out and the gap closed. -/
def closeUp (d r : Seg) : Seg := if d.addr < r.addr then ⟨r.addr - d.len, r.len⟩ else r

theorem Apart.symm {r s : Seg} (h : r.Apart s) : s.Apart r := Or.symm h

@[simp] theorem closeUp_len (d r : Seg) : (closeUp d r).len = r.len := by
  unfold closeUp; split_ifs <;> rfl

theorem closeUp_addr (d r : Seg) :
    (closeUp d r).addr = if d.addr < r.addr then r.addr - d.len else r.addr := by
  unfold closeUp; split_ifs <;> rfl

theorem Inside.mono {n m : ℕ} {r : Seg} (h : r.Inside n) (hnm : n ≤ m) : r.Inside m :=
  ⟨h.1, h.2.1, by have := h.2.2; omega⟩

theorem Inside.closeUp {n : ℕ} {d r : Seg} (hd : d.Inside n) (hr : r.Inside n)
    (h : d.Apart r) : (closeUp d r).Inside (n - d.len) := by
  obtain ⟨hd0, hd1, hd2⟩ := hd
  obtain ⟨hr0, hr1, hr2⟩ := hr
  refine ⟨by simpa using hr0, ?_, ?_⟩
  · rw [closeUp_addr]
    rcases h with h | h <;> split_ifs <;> omega
  · rw [closeUp_addr, closeUp_len]
    rcases h with h | h <;> split_ifs <;> omega

theorem Apart.closeUp {d r s : Seg} (hr0 : 0 < r.len) (hs0 : 0 < s.len) (hdr : d.Apart r)
    (hds : d.Apart s) (hrs : r.Apart s) : (closeUp d r).Apart (closeUp d s) := by
  unfold Apart at *
  simp only [closeUp_addr, closeUp_len]
  rcases hdr with h1 | h1 <;> rcases hds with h2 | h2 <;> rcases hrs with h3 | h3 <;>
    split_ifs <;> omega

end Seg

/-! ## Tilings -/

/-- Non-empty, pairwise disjoint segments inside `[0, n)`. -/
def Packed (n : ℕ) (l : List Seg) : Prop := (∀ r ∈ l, r.Inside n) ∧ l.Pairwise Seg.Apart

/-- Non-empty, pairwise disjoint segments that cover `[0, n)` exactly. -/
def Tiles (n : ℕ) (l : List Seg) : Prop :=
  Packed n l ∧ ∀ k : ℤ, 0 ≤ k → k < n → ∃ r ∈ l, r.Has k

instance (n : ℕ) (l : List Seg) : Decidable (Packed n l) :=
  inferInstanceAs (Decidable ((∀ r ∈ l, r.Inside n) ∧ l.Pairwise Seg.Apart))

instance (n : ℕ) (l : List Seg) : Decidable (Tiles n l) :=
  inferInstanceAs (Decidable (Packed n l ∧ ∀ k : ℤ, 0 ≤ k → k < n → ∃ r ∈ l, r.Has k))

theorem Packed.perm {n : ℕ} {l l' : List Seg} (h : Packed n l) (hp : l.Perm l') :
    Packed n l' :=
  ⟨fun r hr => h.1 r (hp.mem_iff.2 hr), hp.pairwise h.2 Seg.Apart.symm⟩

theorem Packed.sublist {n : ℕ} {l l' : List Seg} (h : Packed n l) (hl : l'.Sublist l) :
    Packed n l' :=
  ⟨fun r hr => h.1 r (hl.subset hr), h.2.sublist hl⟩

theorem Packed.mono {n m : ℕ} {l : List Seg} (h : Packed n l) (hnm : n ≤ m) : Packed m l :=
  ⟨fun r hr => (h.1 r hr).mono hnm, h.2⟩

theorem Packed.nil (n : ℕ) : Packed n [] := ⟨by simp, .nil⟩

theorem Packed.append {n m : ℕ} {l : List Seg} (h : Packed n l) (hm : 0 < m) :
    Packed (n + m) (⟨n, m⟩ :: l) := by
  refine ⟨?_, List.pairwise_cons.2 ⟨?_, h.2⟩⟩
  · intro r hr
    rcases List.mem_cons.1 hr with rfl | hr
    · exact ⟨hm, by simp, by simp⟩
    · exact (h.1 r hr).mono (by omega)
  · intro r hr
    have := (h.1 r hr).2.2
    exact Or.inr this

theorem Packed.closeUp {n : ℕ} {d : Seg} {l : List Seg} (h : Packed n (d :: l)) :
    Packed (n - d.len) (l.map (Seg.closeUp d)) := by
  obtain ⟨hin, hpw⟩ := h
  obtain ⟨hd, hpw⟩ := List.pairwise_cons.1 hpw
  have hdin := hin d (by simp)
  have hlin : ∀ r ∈ l, r.Inside n := fun r hr => hin r (by simp [hr])
  refine ⟨?_, ?_⟩
  · intro r hr
    obtain ⟨r', hr', rfl⟩ := List.mem_map.1 hr
    exact hdin.closeUp (hlin r' hr') (hd r' hr')
  · refine List.pairwise_map.2 (hpw.imp_of_mem ?_)
    intro r s hr hs hrs
    exact Seg.Apart.closeUp (hlin r hr).1 (hlin s hs).1 (hd r hr) (hd s hs) hrs

theorem Tiles.perm {n : ℕ} {l l' : List Seg} (h : Tiles n l) (hp : l.Perm l') : Tiles n l' := by
  refine ⟨h.1.perm hp, fun k h0 hk => ?_⟩
  obtain ⟨r, hr, hrk⟩ := h.2 k h0 hk
  exact ⟨r, hp.mem_iff.1 hr, hrk⟩

theorem Tiles.nil : Tiles 0 [] := ⟨Packed.nil 0, fun k h0 hk => by simp at hk; omega⟩

theorem tiles_zero_iff {l : List Seg} : Tiles 0 l ↔ l = [] := by
  constructor
  · intro h
    rcases l with - | ⟨r, l⟩
    · rfl
    · obtain ⟨h0, h1, h2⟩ := h.1.1 r (by simp)
      omega
  · rintro rfl; exact Tiles.nil

/-- A record added at the end of the used cells. -/
theorem Tiles.append {n m : ℕ} {l : List Seg} (h : Tiles n l) (hm : 0 < m) :
    Tiles (n + m) (⟨n, m⟩ :: l) := by
  refine ⟨h.1.append hm, fun k h0 hk => ?_⟩
  by_cases hkn : k < n
  · obtain ⟨r, hr, hrk⟩ := h.2 k h0 hkn
    exact ⟨r, by simp [hr], hrk⟩
  · exact ⟨⟨n, m⟩, by simp, by simpa using hkn, by push_cast at hk; simpa using hk⟩

/-- A record cut out and the gap closed. -/
theorem Tiles.closeUp {n : ℕ} {d : Seg} {l : List Seg} (h : Tiles n (d :: l)) :
    Tiles (n - d.len) (l.map (Seg.closeUp d)) := by
  refine ⟨h.1.closeUp, fun k h0 hk => ?_⟩
  obtain ⟨hd0, hd1, hd2⟩ := h.1.1 d (by simp)
  -- the cell that moved to `k`: before the gap it is `k` itself, behind it `k + d.len`
  obtain ⟨r, hr, hrk⟩ := h.2 (if k < d.addr then k else k + d.len) (by split_ifs <;> omega)
    (by split_ifs <;> omega)
  have hapart := (List.pairwise_cons.1 h.1.2).1
  have hne : r ∈ l := by
    rcases List.mem_cons.1 hr with rfl | hr
    · exfalso
      unfold Seg.Has at hrk
      split_ifs at hrk <;> omega
    · exact hr
  have hap := hapart r hne
  refine ⟨Seg.closeUp d r, List.mem_map_of_mem hne, ?_⟩
  unfold Seg.Has at hrk ⊢
  unfold Seg.Apart at hap
  have hr0 := (h.1.1 r hr).1
  rw [Seg.closeUp_addr, Seg.closeUp_len]
  rcases hap with hap | hap <;> split_ifs at hrk ⊢ <;> omega

/-- A segment that is forgotten leaves its cells uncovered. -/
theorem Tiles.not_drop {n : ℕ} {d : Seg} {l : List Seg} (h : Tiles n (d :: l)) :
    ¬ Tiles n l := by
  intro h'
  obtain ⟨hd0, hd1, hd2⟩ := h.1.1 d (by simp)
  obtain ⟨r, hr, hrk⟩ := h'.2 d.addr hd1 (by omega)
  have hap := (List.pairwise_cons.1 h.1.2).1 r hr
  have hr0 := (h'.1.1 r hr).1
  unfold Seg.Has at hrk
  unfold Seg.Apart at hap
  omega

/-- Cells added without a segment are not covered. -/
theorem Tiles.not_grow {n m : ℕ} {l : List Seg} (h : Tiles n l) (hm : 0 < m) :
    ¬ Tiles (n + m) l := by
  intro h'
  obtain ⟨r, hr, hrk⟩ := h'.2 n (by omega) (by omega)
  have := (h.1.1 r hr).2.2
  unfold Seg.Has at hrk
  omega

/-! ## Contents -/

variable {β : Type}

/-- The cells of a segment. -/
def Seg.read (data : List β) (r : Seg) : List β := (data.drop r.addr.toNat).take r.len

/-- The cells with those of a segment cut out. -/
def Seg.remove (data : List β) (d : Seg) : List β :=
  data.take d.addr.toNat ++ data.drop (d.addr.toNat + d.len)

theorem Seg.length_read {data : List β} {r : Seg} (h : r.Inside data.length) :
    (r.read data).length = r.len := by
  obtain ⟨-, h1, h2⟩ := h
  simp only [Seg.read, List.length_take, List.length_drop]
  omega

theorem Seg.read_append {data ext : List β} {r : Seg} (h : r.Inside data.length) :
    r.read (data ++ ext) = r.read data := by
  obtain ⟨-, h1, h2⟩ := h
  unfold Seg.read
  rw [List.drop_append_of_le_length (by omega), List.take_append_of_le_length (by simp; omega)]

theorem Seg.read_last (data ext : List β) :
    Seg.read (data ++ ext) ⟨data.length, ext.length⟩ = ext := by
  simp [Seg.read]

/-- Cutting out one record leaves the contents of the others unchanged. -/
theorem Seg.read_remove {data : List β} {d r : Seg} (hd : d.Inside data.length)
    (hr : r.Inside data.length) (h : d.Apart r) :
    (closeUp d r).read (d.remove data) = r.read data := by
  obtain ⟨hd0, hd1, hd2⟩ := hd
  obtain ⟨hr0, hr1, hr2⟩ := hr
  unfold Seg.read Seg.remove
  rw [closeUp_len, closeUp_addr]
  rcases h with h | h
  · rw [ite_eq_left_iff.2 (fun hn => by omega)]
    rw [List.drop_append]
    have hlen : (data.take d.addr.toNat).length = d.addr.toNat := by simp; omega
    rw [List.drop_eq_nil_of_le (by rw [hlen]; omega), List.nil_append, hlen, List.drop_drop]
    congr 2
    omega
  · rw [ite_eq_right_iff.2 (fun hn => by omega)]
    rw [List.drop_append_of_le_length (by simp; omega), List.take_append_of_le_length
      (by simp; omega), List.drop_take, List.take_take]
    congr 1
    omega

/-- The contents of several records, one after the other. -/
def readAll (data : List β) (l : List Seg) : List β := l.flatMap (Seg.read data)

@[simp] theorem readAll_nil (data : List β) : readAll data [] = [] := rfl

@[simp] theorem readAll_cons (data : List β) (r : Seg) (l : List Seg) :
    readAll data (r :: l) = r.read data ++ readAll data l := List.flatMap_cons ..

@[simp] theorem readAll_concat (data : List β) (l : List Seg) (r : Seg) :
    readAll data (l ++ [r]) = readAll data l ++ r.read data := by
  simp [readAll]

theorem readAll_append {data ext : List β} {l : List Seg} (h : ∀ r ∈ l, r.Inside data.length) :
    readAll (data ++ ext) l = readAll data l :=
  List.flatMap_congr fun r hr => Seg.read_append (h r hr)

theorem readAll_remove {data : List β} {d : Seg} {l : List Seg} (hd : d.Inside data.length)
    (hl : ∀ r ∈ l, r.Inside data.length ∧ d.Apart r) :
    readAll (d.remove data) (l.map (Seg.closeUp d)) = readAll data l := by
  unfold readAll
  rw [List.flatMap_map]
  exact List.flatMap_congr fun r hr => Seg.read_remove hd (hl r hr).1 (hl r hr).2

end Segments
