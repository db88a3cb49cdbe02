import ArkForge.Core.HashStandard
import ArkForge.Daemon.Staging
import ArkForge.Lib.Codes
import ArkForge.Lib.Lines

/-! # The names of staging caches

The directory of a cache is named by a digest of the artifact and of the images that are expected. In
what is hashed a name ends at the first NUL, and the size and the digest behind it have a fixed width,
so it can be read in one way only, although a size may contain NULs of its own. -/

namespace ArkForge.Daemon.StagingKeys

open Lib.Ordered Lib.Bytes Lib.Lines Lib.Codes
open Core.Cbor Core.Digest Core.HashStandard
open Staging

variable {a b : Sha256Digest} {m n : OrdMap String ExpectedImage}

def memberBytes (e : String × ExpectedImage) : List UInt8 :=
  utf8 e.1 ++ [0] ++ beBytes 8 e.2.sizeBytes.toNat ++ utf8 e.2.sha256.toHex ++ [0]

/-- What the key is the digest of. -/
def keyBytes (artifactDigest : Sha256Digest) (expected : OrdMap String ExpectedImage) : List UInt8 :=
  utf8 "arkforge-staging-cache-v1" ++ [0] ++ utf8 artifactDigest.toHex ++ [0] ++
    expected.entries.flatMap memberBytes

theorem stagingCacheKey_eq (a : Sha256Digest) (m : OrdMap String ExpectedImage) :
    stagingCacheKey a m = (sha256 (keyBytes a m)).toHex := rfl

/-- No name contains a NUL. -/
def NulFree (expected : OrdMap String ExpectedImage) : Prop := ∀ e ∈ expected.entries, 0 ∉ utf8 e.1

theorem utf8_toHex_append_inj {rest rest' : List UInt8}
    (h : utf8 a.toHex ++ rest = utf8 b.toHex ++ rest') : a = b ∧ rest = rest' := by
  obtain ⟨hhex, hrest⟩ := List.append_inj h ((length_utf8_toHex a).trans (length_utf8_toHex b).symm)
  exact ⟨toHex_injective (utf8_injective hhex), hrest⟩

/-- The bytes of a member show its name, its size, its digest and where they end. -/
theorem delimited_memberBytes : Delimited (fun e => 0 ∉ utf8 e.1) memberBytes := by
  rintro ⟨name, size, digest⟩ ⟨name', size', digest'⟩ rest rest' hname hname' h
  simp only [memberBytes, List.append_assoc, List.singleton_append] at h
  obtain ⟨hnames, hbehind⟩ := append_cons_inj hname hname' h
  obtain ⟨hsizes, hdigests⟩ := List.append_inj hbehind (by simp)
  obtain ⟨rfl, hrest⟩ := utf8_toHex_append_inj hdigests
  have hsize := congrArg beNat hsizes
  rw [beNat_beBytes size.toNat_lt, beNat_beBytes size'.toNat_lt] at hsize
  obtain rfl : name = name' := utf8_injective hnames
  obtain rfl : size = size' := UInt64.toNat_inj.mp hsize
  exact ⟨rfl, List.tail_eq_of_cons_eq hrest⟩

theorem keyBytes_inj (hm : NulFree m) (hn : NulFree n) (h : keyBytes a m = keyBytes b n) :
    a = b ∧ m = n := by
  simp only [keyBytes, List.append_assoc] at h
  obtain ⟨rfl, hmembers⟩ :=
    utf8_toHex_append_inj (List.append_cancel_left (List.append_cancel_left h))
  have hentries := delimited_memberBytes.eq_of_flatMap (fun e => by simp [memberBytes]) hm hn
    (List.append_cancel_left hmembers)
  refine ⟨rfl, ?_⟩
  cases m
  cases n
  simpa using hentries

/-- The two keys are those of one job, or they are a collision. -/
def OneJobOrCollision (a b : Sha256Digest) (m n : OrdMap String ExpectedImage) : Prop :=
  a = b ∧ m = n ∨ keyBytes a m ≠ keyBytes b n ∧ sha256 (keyBytes a m) = sha256 (keyBytes b n)

/-- **Cache keys separate jobs.** If two keys are equal, then the artifacts are, and the images with
their names, sizes and digests, or two different texts that were hashed have one digest. So a directory
that was filled for one set of images is not looked into for another. -/
theorem cache_keys_separate :
    (∀ a b m n, NulFree m → NulFree n → stagingCacheKey a m = stagingCacheKey b n →
      OneJobOrCollision a b m n) ∧
    ∀ cacheRoot a b m n, NulFree m → NulFree n →
      cacheDirectory cacheRoot a m = cacheDirectory cacheRoot b n → OneJobOrCollision a b m n := by
  have hkeys : ∀ a b m n, NulFree m → NulFree n → stagingCacheKey a m = stagingCacheKey b n →
      OneJobOrCollision a b m n := by
    intro a b m n hm hn h
    rw [stagingCacheKey_eq, stagingCacheKey_eq] at h
    by_cases hbytes : keyBytes a m = keyBytes b n
    · exact .inl (keyBytes_inj hm hn hbytes)
    · exact .inr ⟨hbytes, toHex_injective h⟩
  refine ⟨hkeys, fun cacheRoot a b m n hm hn h => hkeys a b m n hm hn ?_⟩
  exact (String.append_right_inj _).mp h

end ArkForge.Daemon.StagingKeys
