import Rollup.Proofs.Store.Evolution

/-! Shards. The shards of a kind part its valid records among the workers, so that workers that each
treat their own shard have together treated every record once. -/
namespace Rollup

namespace Table

theorem mem_shardBuckets {t : Table} {shard shards : Nat} (hshard : shard < shards)
    (bucket : Nat) :
    bucket ∈ t.shardBuckets shard shards ↔ bucket < t.size ∧ bucket % shards = shard := by
  have hpos : 0 < shards := by omega
  unfold shardBuckets
  rw [List.mem_range']
  constructor
  · rintro ⟨i, hi, rfl⟩
    rw [Nat.lt_div_iff_mul_lt hpos, Nat.mul_comm] at hi
    exact ⟨by omega, by rw [Nat.add_mul_mod_self_left, Nat.mod_eq_of_lt hshard]⟩
  · rintro ⟨hlt, rfl⟩
    have hdecompose := Nat.mod_add_div bucket shards
    refine ⟨bucket / shards, ?_, hdecompose.symm⟩
    rw [Nat.lt_div_iff_mul_lt hpos, Nat.mul_comm]
    omega

theorem shardBuckets_nodup (t : Table) {shards : Nat} (hpos : 0 < shards) (shard : Nat) :
    (t.shardBuckets shard shards).Nodup :=
  List.nodup_range' _ hpos

end Table

def Record.inShard (size : Nat) (kind : Kind) (shards shard : Nat) (r : Record) : Bool :=
  r.valid && r.kind == kind && r.hash.toNat % size % shards == shard

theorem Record.inShard_unique {size : Nat} {kind : Kind} {shards shard other : Nat} {r : Record}
    (h : r.inShard size kind shards shard = true) (h' : r.inShard size kind shards other = true) :
    shard = other := by
  simp only [inShard, Bool.and_eq_true, beq_iff_eq] at h h'
  exact h.2.symm.trans h'.2

namespace Store

variable {s : Store} {kind : Kind} {shards shard : Nat}

theorem mem_shard (hs : s.WellFormed) (hshard : shard < shards) (h : Handle) :
    h ∈ s.shard kind shard shards ↔
      ∃ r, s.get? h = some r ∧ r.inShard (s.table kind).size kind shards shard = true := by
  unfold Store.shard Table.shard
  rw [Nat.max_eq_right (by omega), List.mem_filter, List.mem_flatMap]
  constructor
  · rintro ⟨⟨bucket, hbucket, hmem⟩, hvalid⟩
    obtain ⟨r, hr, hkind, rfl⟩ := hs.linked kind bucket h hmem
    rw [Table.mem_shardBuckets hshard] at hbucket
    rw [isValid, hr, Option.any_some] at hvalid
    exact ⟨r, hr, by simpa [Record.inShard, hvalid, hkind, Table.bucketOf] using hbucket.2⟩
  · rintro ⟨r, hr, hvisited⟩
    simp only [Record.inShard, Bool.and_eq_true, beq_iff_eq] at hvisited
    obtain ⟨⟨hvalid, rfl⟩, howner⟩ := hvisited
    refine ⟨⟨_, ?_, hs.mem_chain h r hr hvalid⟩, by rw [isValid, hr, Option.any_some, hvalid]⟩
    rw [Table.mem_shardBuckets hshard]
    exact ⟨Table.bucketOf_lt (hs.size_pos _) _, howner⟩

theorem shard_nodup (hs : s.WellFormed) (kind : Kind) (hpos : 0 < shards) (shard : Nat) :
    (s.shard kind shard shards).Nodup := by
  unfold Store.shard Table.shard
  refine List.Nodup.filter _ (List.nodup_flatMap.mpr ⟨fun bucket _ => hs.nodup kind bucket, ?_⟩)
  rw [Nat.max_eq_right (by omega)]
  refine (Table.shardBuckets_nodup _ hpos shard).imp ?_
  intro bucket bucket' hne h hmem hmem'
  obtain ⟨r, hr, -, hbucket⟩ := hs.linked kind bucket h hmem
  obtain ⟨r', hr', -, hbucket'⟩ := hs.linked kind bucket' h hmem'
  rw [hr] at hr'
  cases hr'
  exact hne (hbucket.symm.trans hbucket')

theorem revises_shard (hs : s.WellFormed) (kind : Kind) (hshard : shard < shards)
    (f : Record → Record) (hf : ∀ r, Record.Follows r (f r)) :
    s.Revises (s.modifyAll (s.shard kind shard shards) f) fun _ r =>
      if r.inShard (s.table kind).size kind shards shard then f r else r := by
  have hpos : 0 < shards := by omega
  have hall := s.revises_modifyAll (shard_nodup hs kind hpos shard) f fun _ _ r _ => hf r
  refine hall.congr fun h r hr => ?_
  simp only [mem_shard hs hshard, hr, Option.some.injEq, exists_eq_left']

end Store

end Rollup
