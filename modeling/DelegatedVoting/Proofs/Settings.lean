import DelegatedVoting.Proofs.TomlLines
import DelegatedVoting.Proofs.TomlNumbers

/-!
# Configurations are read back

A configuration is written as a document with a line for each setting, and the table of this
document is read as the configuration. Only numbers could get in the way, since those of a document
are smaller than those of a configuration can be.

* `Config.Fits`: the numbers of a configuration fit TOML;
* `Config.assignments`, `Config.write?_eq`: the lines of a configuration;
* `Config.read?_write`: a written configuration is read back;
* `Config.fits_of_read?`: a configuration that is read can be written.
-/

namespace DelegatedVoting

open Toml

/-! ### Settings are read back -/

namespace Setting

theorem natural?_ofNat {bound n : Nat} (h : n < bound) : natural? bound (.integer n) = some n := by
  rw [natural?, if_pos ⟨Int.natCast_nonneg n, Int.ofNat_lt.2 h⟩, Int.toNat_natCast]

theorem word16?_toNat (n : UInt16) : word16? (.integer n.toNat) = some n := by
  rw [word16?, natural?_ofNat n.toNat_lt]
  simp

theorem word64?_toNat (n : UInt64) : word64? (.integer n.toNat) = some n := by
  rw [word64?, natural?_ofNat n.toNat_lt]
  simp

theorem le_of_word64? {v : Item} {n : UInt64} (hv : v.Fits) (h : word64? v = some n) :
    (n.toNat : Int) ≤ Int64.maxValue.toInt := by
  obtain ⟨m, hm, rfl⟩ := Option.map_eq_some_iff.1 h
  unfold natural? at hm
  split at hm
  · split at hm
    · rename_i i hi
      obtain rfl := Option.some.inj hm
      have hlt : i.toNat < UInt64.size := by omega
      have hfits : i ≤ Int64.maxValue.toInt := hv
      rw [UInt64.toNat_ofNat_of_lt' hlt]
      omega
    · cases hm
  · cases hm

theorem policyNamed?_name (p : FinalizePolicy) : policyNamed? p.name = some p := by
  cases p with
  | anyone => rfl
  | proposerOnly => rfl

end Setting

namespace Config

/-- The numbers of a configuration fit TOML. -/
structure Fits (c : Config) : Prop where
  maxConcurrent : (c.maxConcurrent.toNat : Int) ≤ Int64.maxValue.toInt
  maxStatementLength : (c.maxStatementLength.toNat : Int) ≤ Int64.maxValue.toInt
  mapSize : (c.mapSize.toNat : Int) ≤ Int64.maxValue.toInt

theorem rpcPort_le (c : Config) : (c.rpcPort.toNat : Int) ≤ Int64.maxValue.toInt := by
  have hport := c.rpcPort.toNat_lt
  have hmax : Int64.maxValue.toInt = 9223372036854775807 := by decide
  omega

/-- The settings of a configuration, in the order of their lines. -/
def assignments (c : Config) (h : c.Fits) : List Assignment := [
  ⟨"data_dir", _, _, by decide, Value.writes_text c.dataDir⟩,
  ⟨"enable_rpc", _, _, by decide, Value.writes_flag c.enableRpc⟩,
  ⟨"rpc_bind", _, _, by decide, Value.writes_text c.rpcBind⟩,
  ⟨"rpc_port", _, _, by decide, Value.writes_toDigits c.rpcPort_le⟩,
  ⟨"log_format", _, _, by decide, Value.writes_text c.logFormat⟩,
  ⟨"log_level", _, _, by decide, Value.writes_text c.logLevel⟩,
  ⟨"enable_metrics", _, _, by decide, Value.writes_flag c.enableMetrics⟩,
  ⟨"max_concurrent", _, _, by decide, Value.writes_toDigits h.maxConcurrent⟩,
  ⟨"max_statement_len", _, _, by decide, Value.writes_toDigits h.maxStatementLength⟩,
  ⟨"finalize_policy", _, _, by decide, Value.writes_text c.finalizePolicy.name⟩,
  ⟨"lmdb_map_size", _, _, by decide, Value.writes_toDigits h.mapSize⟩]

theorem write?_eq (c : Config) (h : c.Fits) :
    c.write? = some (String.ofList ((c.assignments h).flatMap Assignment.line)) := by
  simp only [write?, writeNumber?, if_pos c.rpcPort_le, if_pos h.maxConcurrent,
    if_pos h.maxStatementLength, if_pos h.mapSize]
  rfl

theorem ofTable?_entries (c : Config) (h : c.Fits) :
    ofTable? (.mk .header ((c.assignments h).map Assignment.entry)) = some c := by
  simp [ofTable?, assignments, Assignment.entry, Setting.get, Table.get?, Table.entries,
    List.lookup_cons, Setting.text?, Setting.flag?, Setting.policy?, Setting.word16?_toNat,
    Setting.word64?_toNat, Setting.policyNamed?_name]

/-- A written configuration is read back. -/
theorem read?_write (c : Config) (h : c.Fits) :
    ∃ text, c.write? = some text ∧ read? text = some c := by
  refine ⟨_, c.write?_eq h, ?_⟩
  have hkeys : ((c.assignments h).map Assignment.key).Nodup := by
    show ["data_dir", "enable_rpc", "rpc_bind", "rpc_port", "log_format", "log_level",
      "enable_metrics", "max_concurrent", "max_statement_len", "finalize_policy",
      "lmdb_map_size"].Nodup
    decide +kernel
  rw [read?, Document.read?_lines hkeys, Option.bind_eq_bind, Option.bind_some,
    c.ofTable?_entries h]

/-! ### What is read can be written -/

theorem le_of_get_word64 {t : Toml.Table} (ht : t.Fits) {key : String} {fallback n : UInt64}
    (hfallback : (fallback.toNat : Int) ≤ Int64.maxValue.toInt)
    (h : Setting.get t key Setting.word64? fallback = some n) :
    (n.toNat : Int) ≤ Int64.maxValue.toInt := by
  unfold Setting.get at h
  split at h
  · rename_i v hv
    obtain ⟨front, back, hentries, -⟩ := List.lookup_eq_some_iff.1 hv
    have hfits : v.Fits := ht (key, v) (by simp [hentries])
    exact Setting.le_of_word64? hfits h
  · cases h
    exact hfallback

theorem fits_of_ofTable? {t : Toml.Table} {c : Config} (ht : t.Fits) (h : ofTable? t = some c) :
    c.Fits := by
  simp only [ofTable?, Option.bind_eq_bind, Option.bind_eq_some_iff] at h
  obtain ⟨_, -, _, -, _, -, _, -, _, -, _, -, _, -, maxConcurrent, hconcurrent, maxStatementLength,
    hstatement, _, -, mapSize, hsize, heq⟩ := h
  cases heq
  exact ⟨le_of_get_word64 ht (by decide) hconcurrent, le_of_get_word64 ht (by decide) hstatement,
    le_of_get_word64 ht (by decide) hsize⟩

/-- A configuration that is read can be written: what it does not take from the text is standard. -/
theorem fits_of_read? {text : String} {c : Config} (h : read? text = some c) : c.Fits := by
  obtain ⟨t, ht, h⟩ := Option.bind_eq_some_iff.1 h
  exact fits_of_ofTable? (Document.fits_of_read? ht) h

theorem read_eq_ok_iff {text : String} {c : Config} : read text = .ok c ↔ read? text = some c := by
  rw [read]
  cases read? text <;> simp

/-! ### The theorem -/

/-- **A written configuration is read back.** A configuration whose numbers are at most 2 ^ 63 - 1
can be written, whatever the characters of its texts, and is read back as it was. So is every
configuration that has been read from some text. -/
theorem settings_round_trip :
    (∀ c : Config, c.maxConcurrent.toNat ≤ 9223372036854775807 →
      c.maxStatementLength.toNat ≤ 9223372036854775807 → c.mapSize.toNat ≤ 9223372036854775807 →
        ∃ text, c.write? = some text ∧ read text = .ok c) ∧
    ∀ (text : String) (c : Config), read text = .ok c →
      ∃ written, c.write? = some written ∧ read written = .ok c := by
  have hmax : Int64.maxValue.toInt = 9223372036854775807 := by decide
  simp only [read_eq_ok_iff]
  constructor
  · intro c hconcurrent hstatement hsize
    exact c.read?_write ⟨by omega, by omega, by omega⟩
  · intro text c h
    exact c.read?_write (fits_of_read? h)

/-- A configuration with quotes of all kinds, and the standard one. -/
theorem settings_round_trip_of_quotes :
    let c : Config := {
      dataDir := "'''\"\"\"\\\n\r\t\x00"
      rpcBind := "it's \"::\""
      logFormat := "\n''\\"
      logLevel := ""
      maxConcurrent := 9223372036854775807 }
    (∃ text, c.write? = some text ∧ read text = .ok c) ∧
      read "" = .ok {} ∧
        ∃ written, ({} : Config).write? = some written ∧ read written = .ok {} := by
  have hempty : read "" = .ok {} := read_eq_ok_iff.2 (by decide +kernel)
  exact ⟨settings_round_trip.1 _ (by decide) (by decide) (by decide), hempty,
    settings_round_trip.2 "" {} hempty⟩

end Config

end DelegatedVoting
