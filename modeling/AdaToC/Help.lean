import AdaToC.Text.Utf8

/-!
# The help text

The text that the command prints when it is asked for help.
-/

namespace AdaToC

/-- The help text, line by line. -/
def helpLines : List String :=
  ["ada2c - Ada to C synchronization tool",
   "",
   "Usage:",
   "  ada2c [options] [source.adb | directory ...]",
   "",
   "Arguments:",
   "  source.adb    翻訳するAdaファイル（複数指定可）",
   "  directory     ディレクトリを指定した場合、.adb/.ads ファイルをすべて翻訳",
   "                省略時は ada2c.toml の [source] 設定（既定: library.adb, library_c_wrapper.adb）",
   "",
   "Options:",
   "  -c, --config <path>         ada2c.toml のパス（既定: 上位ディレクトリを探索）",
   "  -o, --out <dir>             生成ファイルの出力先ディレクトリ",
   "  -l, --log-level <level>     ログレベル: debug, info, warn, error（デフォルト: info）",
   "  -j, --jobs <n>              並列に翻訳するファイル数（デフォルト: CPU数）",
   "  --stdout                    ファイルに書かず標準出力に出力",
   "  --no-compare                既存のC実装との比較を行わない",
   "  --diagnostics               抽出できなかった関数定義を警告として表示",
   "  -h, --help                  このヘルプを表示",
   "",
   "Environment Variables:",
   "  LOG_LEVEL=<level>           ログレベル",
   "  ADA2C_JOBS=<n>              並列数",
   "",
   "Examples:",
   "  ada2c                               カレントディレクトリの library.adb などを翻訳",
   "  ada2c library.adb -o jni            jni/ に ada_math_generated.\x7bh,c\x7d を生成",
   "  ada2c --stdout src/                 src/ 以下のAdaファイルを翻訳して表示",
   "  LOG_LEVEL=debug ada2c --diagnostics デバッグログと診断を有効化"]

/-- The help text. -/
def helpText : Bytes :=
  helpLines.flatMap fun line => bytes line ++ bytes "\n"

end AdaToC
