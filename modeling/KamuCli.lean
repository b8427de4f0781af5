import KamuCli.Arrow.DataFrame
import KamuCli.Odf.Metadata
import KamuCli.Ingest.DataWriter
import KamuCli.Ingest.SystemColumns
import KamuCli.Ingest.Scan
import KamuCli.Ingest.Writer
import KamuCli.Ingest.Stage
import KamuCli.Ingest.Projection
import KamuCli.Ingest.Commit
import KamuCli.Ingest.ChainInvariant
import KamuCli.Ingest.Writers
import KamuCli.Ingest.History
import KamuCli.Ingest.Atomic
import KamuCli.Infra.RemoteAliases
